import LispMachine.Primitive.Catalogue
import LispMachine.Proofs.Store.Computing
import LispMachine.Proofs.Store.Editing

/-!
Every primitive, and every operation of the code, that works on the store alone keeps a store with a
buffer sound and gives a known value for known arguments. This puts the modules before together into
two tables, one for the catalogue and one for the operations.
-/

set_option autoImplicit false

namespace LispMachine

namespace Storage

/-- In a store with a buffer, known arguments give a known value and the store stays sound. -/
def Safe (run : List Value → Storage Value) : Prop :=
  ∀ (world : Store) (arguments : List Value), world.HasBuffer 0 → AllKnownTo arguments world →
    Upholds world (run arguments) Value.KnownTo

namespace Safe

theorem fixed {action : Storage Value}
    (haction : ∀ {world : Store}, Upholds world action Value.KnownTo) : Safe fun _ ↦ action :=
  fun _ _ _ _ ↦ haction

theorem listed {run : List Value → Storage Value}
    (hrun : ∀ {world : Store} {arguments : List Value}, AllKnownTo arguments world →
      Upholds world (run arguments) Value.KnownTo) : Safe run :=
  fun _ _ _ harguments ↦ hrun harguments

theorem unary {run : Value → Storage Value}
    (hrun : ∀ {world : Store} {a : Value}, a.KnownTo world →
      Upholds world (run a) Value.KnownTo) : Safe (LispMachine.unary run) :=
  fun _ _ _ harguments ↦ .here fun _ hgrows hsound ↦
    have hargument := hsound.known_argument (hgrows.allKnown harguments)
    hrun (hargument 0)

theorem binary {run : Value → Value → Storage Value}
    (hrun : ∀ {world : Store} {a b : Value}, a.KnownTo world → b.KnownTo world →
      Upholds world (run a b) Value.KnownTo) : Safe (LispMachine.binary run) :=
  fun _ _ _ harguments ↦ .here fun _ hgrows hsound ↦
    have hargument := hsound.known_argument (hgrows.allKnown harguments)
    hrun (hargument 0) (hargument 1)

theorem ternary {run : Value → Value → Value → Storage Value}
    (hrun : ∀ {world : Store} {a b c : Value}, a.KnownTo world → b.KnownTo world →
      c.KnownTo world → Upholds world (run a b c) Value.KnownTo) : Safe (LispMachine.ternary run) :=
  fun _ _ _ harguments ↦ .here fun _ hgrows hsound ↦
    have hargument := hsound.known_argument (hgrows.allKnown harguments)
    hrun (hargument 0) (hargument 1) (hargument 2)

/-- A test of a value on the heap, which may be any value. -/
theorem tested (test : Heap → Value → Bool) : Safe (LispMachine.unary (testHeap test)) :=
  unary fun _ ↦ .testHeap test _

theorem compared (relation : Number → Number → Bool) : Safe (compareWith relation) :=
  listed (.compareWith relation)

theorem placeMarker : Safe (LispMachine.ternary Storage.placeMarker) :=
  fun _ _ hbuffer harguments ↦ .here fun _ hgrows hsound ↦
    have hargument := hsound.known_argument (hgrows.allKnown harguments)
    .placeMarker (hargument 0) (hargument 1) (hargument 2) (hgrows.hasBuffer hbuffer)

theorem bufferName : Safe (LispMachine.unary Storage.bufferName) :=
  fun _ _ hbuffer harguments ↦ .here fun _ hgrows hsound ↦
    have hargument := hsound.known_argument (hgrows.allKnown harguments)
    .bufferName (hargument 0) (hgrows.hasBuffer hbuffer)

end Safe

end Storage

open Storage

/-- What works on the store alone is safe. -/
def PrimitiveAction.StoresSafely : PrimitiveAction → Prop
  | .storing run => Safe run
  | .running _ => True

namespace Primitive

theorem arithmetic_storesSafely :
    ∀ primitive ∈ arithmetic, primitive.action.StoresSafely := by
  simp only [arithmetic, List.forall_mem_cons]
  exact ⟨.listed .plus, .listed .minus, .listed .times, .listed .quotient, .binary .remainder,
    .unary .addOne, .unary .subtractOne, .listed (.extremum _), .listed (.extremum _), .compared _,
    .compared _, .compared _, .compared _, .compared _, .unary .absoluteValue, .unary .toFloat,
    nofun⟩

theorem data_storesSafely : ∀ primitive ∈ data, primitive.action.StoresSafely := by
  simp only [data, List.forall_mem_cons]
  exact ⟨.unary fun _ ↦ .ofBool _, .tested _, .tested _, .tested _, .tested _,
    .unary fun _ ↦ .ofBool _, .tested _, .tested _, .tested _, .unary fun _ ↦ .functionp _,
    .unary fun _ ↦ .ofBool _, .unary fun _ ↦ .ofBool _, .binary fun _ _ ↦ .ofBool _,
    .binary fun _ _ ↦ .eql _ _, .binary fun _ _ ↦ .equal _ _, .unary .value, .unary .symbolName,
    .unary .symbolValue, .unary .symbolFunction, .unary .boundp, .unary .fboundp,
    .binary .setVariable, .binary .setFunction, .binary fun hsymbol _ ↦ .getProperty hsymbol _,
    .ternary .putProperty, .binary .defineAlias, .unary .internNamed, nofun⟩

theorem sequence_storesSafely : ∀ primitive ∈ sequence, primitive.action.StoresSafely := by
  simp only [sequence, List.forall_mem_cons]
  exact ⟨.unary .car, .unary .cdr, .unary fun _ ↦ .carSafe _, .unary fun _ ↦ .cdrSafe _,
    .binary .cons, .listed .list, .listed .vector, .unary .length, .binary .nth, .binary .nthcdr,
    .binary .elt, .binary .aref, .ternary .aset, .binary fun _ hlist ↦ .findTail hlist _,
    .binary fun _ hlist ↦ .findTail hlist _, .binary fun _ hlist ↦ .assq _ hlist, .unary .nreverse,
    .listed .nconc, .binary .setCar, .binary .setCdr, nofun⟩

theorem text_storesSafely : ∀ primitive ∈ text, primitive.action.StoresSafely := by
  simp only [text, List.forall_mem_cons]
  exact ⟨.listed .concat, .ternary .substring, .unary (.convertCase _ _), .unary (.convertCase _ _),
    .binary .stringEqual, .binary .stringEqual, .binary .stringLess, .binary .stringLess,
    .unary .numberToString, .unary .stringToNumber, .unary .charToString, .binary .repeatCharacter,
    .ternary .stringMatch, .unary .lookingAt, .unary fun hgroup ↦ .matchBound hgroup 0,
    .unary fun hgroup ↦ .matchBound hgroup 1, nofun⟩

theorem editing_storesSafely : ∀ primitive ∈ editing, primitive.action.StoresSafely := by
  simp only [editing, List.forall_mem_cons]
  exact ⟨.fixed .point, .fixed .pointMin, .fixed .pointMax, .unary .gotoChar, .listed .insert,
    .unary .charAfter, .fixed .followingChar, .fixed .precedingChar, .fixed .currentColumn,
    .binary .indentTo, .fixed .atLineEnd, .fixed .atBufferEnd, .fixed .atLineStart,
    .fixed .atBufferStart, .fixed .currentBufferObject, .unary .setBuffer, .unary .getBufferCreate,
    .bufferName, .fixed .bufferString, .binary .bufferSubstring, .fixed .erase, .unary .forwardChar,
    .unary .forwardWord, .unary .forwardLine, .unary .beginningOfLine, .unary .endOfLine,
    .binary .skipCharsForward, .binary .skipCharsBackward, .unary .charSyntax,
    .binary .deleteRegion,
    .binary .narrowToRegion, .fixed .widen, .fixed .makeDetachedMarker,
    fun _ _ hbuffer _ ↦ .pointMarker hbuffer, .unary .markerPosition, .placeMarker, nofun⟩

theorem control_storesSafely : ∀ primitive ∈ control, primitive.action.StoresSafely := by
  simp only [control, List.forall_mem_cons]
  exact ⟨trivial, .binary .raise, .listed .raiseFormatted, .listed .format, trivial, trivial,
    trivial, trivial, .fixed .nil, .binary fun _ _ ↦ .printToString _ _, trivial, trivial, nofun⟩

/-- Every primitive of the catalogue that works on the store alone is safe. -/
theorem storesSafely {primitive : Primitive} (hprimitive : primitive ∈ catalogue) :
    primitive.action.StoresSafely := by
  simp only [catalogue, List.mem_toArray, List.mem_append] at hprimitive
  rcases hprimitive with ((((hmem | hmem) | hmem) | hmem) | hmem) | hmem
  · exact arithmetic_storesSafely primitive hmem
  · exact data_storesSafely primitive hmem
  · exact sequence_storesSafely primitive hmem
  · exact text_storesSafely primitive hmem
  · exact editing_storesSafely primitive hmem
  · exact control_storesSafely primitive hmem

end Primitive

/-- Every operation that works on the store alone is safe. -/
theorem Operation.storesSafely (op : Operation) : op.action.StoresSafely := by
  cases op with
  | saveCurrentBuffer | saveCurrentBufferAgain | interactiveP | saveExcursion
  | saveWindowExcursion | saveRestriction | catchForm | unwindProtect | conditionCase
  | tempOutputBufferSetup | tempOutputBufferShow => trivial
  | nth => exact Safe.binary .nth
  | symbolp | isNull | integerp => exact Safe.unary fun _ ↦ .ofBool _
  | consp | stringp | listp | numberp => exact Safe.tested _
  | same => exact Safe.binary fun _ _ ↦ .ofBool _
  | memqTail | memberTail => exact Safe.binary fun _ hlist ↦ .findTail hlist _
  | car => exact Safe.unary .car
  | cdr => exact Safe.unary .cdr
  | cons => exact Safe.binary .cons
  | listOne | listTwo | listThree | listFour => exact Safe.listed .list
  | length => exact Safe.unary .length
  | aref => exact Safe.binary .aref
  | aset => exact Safe.ternary .aset
  | symbolValue => exact Safe.unary .symbolValue
  | symbolFunction => exact Safe.unary .symbolFunction
  | setValue => exact Safe.binary .setVariable
  | setFunction => exact Safe.binary .setFunction
  | getProperty => exact Safe.binary fun hsymbol _ ↦ .getProperty hsymbol _
  | substring => exact Safe.ternary .substring
  | concatTwo | concatThree | concatFour => exact Safe.listed .concat
  | subtractOne => exact Safe.unary .subtractOne
  | addOne => exact Safe.unary .addOne
  | numEqual | greater | less | lessOrEqual | greaterOrEqual => exact Safe.compared _
  | difference | negate => exact Safe.listed .minus
  | plus => exact Safe.listed .plus
  | maximum | minimum => exact Safe.listed (.extremum _)
  | multiply => exact Safe.listed .times
  | quotient => exact Safe.listed .quotient
  | remainder => exact Safe.binary .remainder
  | pointPosition => exact Safe.fixed .point
  | gotoChar => exact Safe.unary .gotoChar
  | insertText => exact Safe.listed .insert
  | pointMax => exact Safe.fixed .pointMax
  | pointMin => exact Safe.fixed .pointMin
  | charAfter => exact Safe.unary .charAfter
  | followingChar => exact Safe.fixed .followingChar
  | precedingChar => exact Safe.fixed .precedingChar
  | currentColumn => exact Safe.fixed .currentColumn
  | indentTo => exact Safe.binary .indentTo
  | eolp => exact Safe.fixed .atLineEnd
  | eobp => exact Safe.fixed .atBufferEnd
  | bolp => exact Safe.fixed .atLineStart
  | bobp => exact Safe.fixed .atBufferStart
  | currentBuffer => exact Safe.fixed .currentBufferObject
  | setBuffer => exact Safe.unary .setBuffer
  | forwardChar => exact Safe.unary .forwardChar
  | forwardWord => exact Safe.unary .forwardWord
  | skipCharsForward => exact Safe.binary .skipCharsForward
  | skipCharsBackward => exact Safe.binary .skipCharsBackward
  | forwardLine => exact Safe.unary .forwardLine
  | charSyntax => exact Safe.unary .charSyntax
  | bufferSubstring => exact Safe.binary .bufferSubstring
  | deleteRegion => exact Safe.binary .deleteRegion
  | narrowToRegion => exact Safe.binary .narrowToRegion
  | widen => exact Safe.fixed .widen
  | endOfLine => exact Safe.unary .endOfLine
  | setMarker => exact Safe.placeMarker
  | matchBeginning => exact Safe.unary fun hgroup ↦ .matchBound hgroup 0
  | matchEnd => exact Safe.unary fun hgroup ↦ .matchBound hgroup 1
  | upcase | downcase => exact Safe.unary (.convertCase _ _)
  | stringEqual => exact Safe.binary .stringEqual
  | stringLess => exact Safe.binary .stringLess
  | equal => exact Safe.binary fun _ _ ↦ .equal _ _
  | nthcdr => exact Safe.binary .nthcdr
  | elt => exact Safe.binary .elt
  | assq => exact Safe.binary fun _ hlist ↦ .assq _ hlist
  | nreverse => exact Safe.unary .nreverse
  | setcar => exact Safe.binary .setCar
  | setcdr => exact Safe.binary .setCdr
  | carSafe => exact Safe.unary fun _ ↦ .carSafe _
  | cdrSafe => exact Safe.unary fun _ ↦ .cdrSafe _
  | nconc => exact Safe.listed .nconc

end LispMachine
