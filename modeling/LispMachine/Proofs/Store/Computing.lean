import LispMachine.Primitive.Matching
import LispMachine.Proofs.Store.Structures

/-!
The storage actions that compute: arithmetic, texts, matching and printing, and those that the
handling of conditions, the evaluation of forms and the invocation of functions are made of. They
allocate and raise errors, and otherwise leave the store as it is, except for the bounds of the last
match, of which soundness says nothing.
-/

set_option autoImplicit false

namespace LispMachine

namespace Storage.Upholds

variable {world : Store}

/-! ### Arithmetic -/

theorem numbers {values : List Value} (hvalues : AllKnownTo values world) :
    Upholds world (Storage.numbers values) fun numbers _ ↦ numbers.length = values.length := by
  induction values generalizing world with
  | nil => exact pure fun _ _ _ ↦ rfl
  | cons value values ih =>
    obtain ⟨hvalue, hvalues⟩ := List.forall_mem_cons.mp hvalues
    refine bind (number hvalue) fun _ later hlater _ _ ↦ ?_
    refine bind (ih (hlater.allKnown hvalues)) fun _ _ _ _ hlength ↦ pure fun _ _ _ ↦ ?_
    simp [hlength]

theorem combine (operation : ArithmeticOperation) (a b : Number) :
    Upholds world (Storage.combine operation a b) Anything := by
  unfold Storage.combine
  cases Number.combine? operation a b with
  | some result => exact done
  | none => exact error rfl .nil

theorem combineAll (operation : ArithmeticOperation) (accumulator : Number)
    (numbers : List Number) :
    Upholds world (Storage.combineAll operation accumulator numbers) Anything := by
  induction numbers generalizing world accumulator with
  | nil => exact done
  | cons next rest ih => exact bind (combine operation accumulator next) fun _ _ _ _ _ ↦ ih _

theorem plus {arguments : List Value} (harguments : AllKnownTo arguments world) :
    Upholds world (Storage.plus arguments) Value.KnownTo :=
  bind (numbers harguments) fun _ _ _ _ _ ↦ bind (combineAll _ _ _) fun _ _ _ _ _ ↦ makeNumber _

theorem times {arguments : List Value} (harguments : AllKnownTo arguments world) :
    Upholds world (Storage.times arguments) Value.KnownTo :=
  bind (numbers harguments) fun _ _ _ _ _ ↦ bind (combineAll _ _ _) fun _ _ _ _ _ ↦ makeNumber _

theorem minus {arguments : List Value} (harguments : AllKnownTo arguments world) :
    Upholds world (Storage.minus arguments) Value.KnownTo := by
  unfold Storage.minus
  split
  · exact zero
  · refine bind (number (harguments _ (by simp))) fun n _ _ _ _ ↦ ?_
    refine bind (combine _ _ _) fun negated _ _ _ _ ↦ ?_
    cases n with
    | integer | float => exact makeNumber _
  · refine bind (number (harguments _ (by simp))) fun n later hlater _ _ ↦ ?_
    refine bind (numbers (hlater.allKnown (harguments.sublist (by simp)))) fun _ _ _ _ _ ↦ ?_
    exact bind (combineAll _ _ _) fun _ _ _ _ _ ↦ makeNumber _

theorem quotient {arguments : List Value} (harguments : AllKnownTo arguments world) :
    Upholds world (Storage.quotient arguments) Value.KnownTo := by
  refine bind (numbers harguments) fun all _ _ _ _ ↦ ?_
  dsimp only
  split
  · exact zero
  · exact bind (combine _ _ _) fun _ _ _ _ _ ↦ makeNumber _
  · exact bind (combineAll _ _ _) fun _ _ _ _ _ ↦ makeNumber _

theorem remainder {dividend divisor : Value} (hdividend : dividend.KnownTo world)
    (hdivisor : divisor.KnownTo world) :
    Upholds world (Storage.remainder dividend divisor) Value.KnownTo := by
  refine bind (positionArgument hdividend) fun x later hlater _ _ ↦ ?_
  refine bind (positionArgument (hlater.known hdivisor)) fun y _ _ _ _ ↦ ?_
  dsimp only
  split_ifs
  · exact never_bind (error rfl .nil)
  · exact makeNumber _

theorem addOne {value : Value} (hvalue : value.KnownTo world) :
    Upholds world (Storage.addOne value) Value.KnownTo :=
  bind (number hvalue) fun _ _ _ _ _ ↦ bind (combine _ _ _) fun _ _ _ _ _ ↦ makeNumber _

theorem subtractOne {value : Value} (hvalue : value.KnownTo world) :
    Upholds world (Storage.subtractOne value) Value.KnownTo :=
  bind (number hvalue) fun _ _ _ _ _ ↦ bind (combine _ _ _) fun _ _ _ _ _ ↦ makeNumber _

theorem absoluteValue {value : Value} (hvalue : value.KnownTo world) :
    Upholds world (Storage.absoluteValue value) Value.KnownTo := by
  refine bind (number hvalue) fun n _ _ _ _ ↦ ?_
  cases n with
  | integer | float => exact makeNumber _

theorem toFloat {value : Value} (hvalue : value.KnownTo world) :
    Upholds world (Storage.toFloat value) Value.KnownTo := by
  refine bind (number hvalue) fun n _ hgrows _ _ ↦ ?_
  cases n with
  | integer => exact makeFloat _
  | float => exact .value (hgrows.known hvalue)

theorem compareWith (relation : Number → Number → Bool) {arguments : List Value}
    (harguments : AllKnownTo arguments world) :
    Upholds world (Storage.compareWith relation arguments) Value.KnownTo :=
  bind (numbers harguments) fun _ _ _ _ _ ↦ ofBool _

end Storage.Upholds

/-- The best of some values is one of them. -/
theorem Storage.bestOf_mem (beats : Number → Number → Bool) (best : Value × Number)
    (rest : List (Value × Number)) : Storage.bestOf beats best rest ∈ best :: rest := by
  induction rest generalizing best with
  | nil => exact List.mem_singleton_self best
  | cons next rest ih =>
    unfold Storage.bestOf
    rcases List.mem_cons.mp (ih (if beats next.2 best.2 then next else best)) with hbest | hrest
    · rw [hbest]
      split_ifs <;> simp
    · exact List.mem_cons_of_mem _ (List.mem_cons_of_mem _ hrest)

namespace Storage.Upholds

variable {world : Store}

theorem extremum (beats : Number → Number → Bool) {arguments : List Value}
    (harguments : AllKnownTo arguments world) :
    Upholds world (Storage.extremum beats arguments) Value.KnownTo := by
  refine bind (numbers harguments) fun all later hlater _ _ ↦ ?_
  cases hpairs : arguments.zip all with
  | nil => exact nil
  | cons first rest =>
    have hmem : Storage.bestOf beats first rest ∈ arguments.zip all :=
      hpairs ▸ bestOf_mem beats first rest
    have hbest : (Storage.bestOf beats first rest).1.KnownTo later :=
      hlater.known (harguments _ (List.of_mem_zip hmem).1)
    dsimp only
    split
    · split_ifs
      · exact makeFloat _
      · exact .value hbest
    · exact .value hbest

/-! ### Texts -/

theorem characters {values : List Value} (hvalues : AllKnownTo values world) :
    Upholds world (Storage.characters values) Anything := by
  induction values generalizing world with
  | nil => exact done
  | cons value values ih =>
    obtain ⟨hvalue, hvalues⟩ := List.forall_mem_cons.mp hvalues
    refine bind (characterArgument hvalue) fun _ later hlater _ _ ↦ ?_
    exact bind (ih (hlater.allKnown hvalues)) fun _ _ _ _ _ ↦ done

theorem concatPart {value : Value} (hvalue : value.KnownTo world) :
    Upholds world (Storage.concatPart value) Anything := by
  refine reading_bind (fun _ ↦ rfl) fun store hgrows hsound ↦ ?_
  split
  · exact done
  · next items hitems =>
    exact characters (hsound.known_of_vector? (Heap.vector?_eq_some.mpr hitems))
  · exact bind (elements (hgrows.known hvalue)) fun _ _ _ _ hitems ↦ characters hitems
  · split_ifs
    · exact done
    · exact wrongType rfl (hgrows.known hvalue)

theorem concatParts {values : List Value} (hvalues : AllKnownTo values world) :
    Upholds world (Storage.concatParts values) Anything := by
  induction values generalizing world with
  | nil => exact done
  | cons value values ih =>
    obtain ⟨hvalue, hvalues⟩ := List.forall_mem_cons.mp hvalues
    refine bind (concatPart hvalue) fun _ later hlater _ _ ↦ ?_
    exact bind (ih (hlater.allKnown hvalues)) fun _ _ _ _ _ ↦ done

theorem concat {arguments : List Value} (harguments : AllKnownTo arguments world) :
    Upholds world (Storage.concat arguments) Value.KnownTo :=
  bind (concatParts harguments) fun _ _ _ _ _ ↦ makeString _

theorem indexArgument? {value : Value} (hvalue : value.KnownTo world) :
    Upholds world (Storage.indexArgument? value) Anything := by
  unfold Storage.indexArgument? Value.given?
  split_ifs
  · exact done
  · exact bind (fixnumArgument hvalue) fun _ _ _ _ _ ↦ done

theorem substring {sequence start finish : Value} (hsequence : sequence.KnownTo world)
    (hstart : start.KnownTo world) (hfinish : finish.KnownTo world) :
    Upholds world (Storage.substring sequence start finish) Value.KnownTo := by
  refine bind (indexArgument? hstart) fun low first hfirst _ _ ↦ ?_
  refine bind (indexArgument? (hfirst.known hfinish)) fun high second hsecond _ _ ↦ ?_
  refine reading_bind (fun _ ↦ rfl) fun store hstore hsound ↦ ?_
  have hgrows : world.Grows store := hfirst.trans (hsecond.trans hstore)
  have hrange : Upholds store
      (Storage.error Symbols.argsOutOfRange [sequence, start, finish] : Storage Value)
      Value.KnownTo :=
    error rfl (hgrows.allKnown (.cons hsequence (.pair hstart hfinish)))
  split
  · next items hitems =>
    have hknown := hsound.known_of_vector? (Heap.vector?_eq_some.mpr hitems)
    split
    · refine makeVector (hknown.sublist ?_)
      rw [Array.toList_extract, List.extract_eq_take_drop]
      exact fun value hmem ↦ List.drop_subset _ _ (List.take_subset _ _ hmem)
    · exact hrange
  · split
    · exact makeString _
    · exact hrange
  · exact wrongType rfl (hgrows.known hsequence)

theorem convertCase (convert : Char → List Char) (convertText : String → String) {value : Value}
    (hvalue : value.KnownTo world) :
    Upholds world (Storage.convertCase convert convertText value) Value.KnownTo := by
  refine reading_bind (fun _ ↦ rfl) fun store hgrows _ ↦ ?_
  split
  · exact makeString _
  · refine bind (characterArgument (hgrows.known hvalue)) fun c later hlater _ _ ↦ ?_
    split
    · exact ofChar _
    · exact .value (hlater.known (hgrows.known hvalue))
  · exact wrongType rfl (hgrows.known hvalue)

theorem textOf {value : Value} (hvalue : value.KnownTo world) :
    Upholds world (Storage.textOf value) Anything := by
  cases value with
  | symbol index => exact reading_bind (fun _ ↦ rfl) fun _ _ _ ↦ done
  | fixnum | object => exact stringArgument hvalue

theorem stringEqual {a b : Value} (ha : a.KnownTo world) (hb : b.KnownTo world) :
    Upholds world (Storage.stringEqual a b) Value.KnownTo :=
  bind (textOf ha) fun _ _ hgrows _ _ ↦ bind (textOf (hgrows.known hb)) fun _ _ _ _ _ ↦ ofBool _

theorem stringLess {a b : Value} (ha : a.KnownTo world) (hb : b.KnownTo world) :
    Upholds world (Storage.stringLess a b) Value.KnownTo :=
  bind (textOf ha) fun _ _ hgrows _ _ ↦ bind (textOf (hgrows.known hb)) fun _ _ _ _ _ ↦ ofBool _

theorem print (style : PrintStyle) (value : Value) :
    Upholds world (Storage.print style value) Anything :=
  reading_bind (fun _ ↦ rfl) fun _ _ _ ↦ done

theorem numberToString {value : Value} (hvalue : value.KnownTo world) :
    Upholds world (Storage.numberToString value) Value.KnownTo := by
  refine reading_bind (fun _ ↦ rfl) fun store hgrows _ ↦ ?_
  dsimp only
  split_ifs
  · exact never_bind (wrongType rfl (hgrows.known hvalue))
  · exact bind (print _ _) fun _ _ _ _ _ ↦ makeString _

theorem stringToNumber {value : Value} (hvalue : value.KnownTo world) :
    Upholds world (Storage.stringToNumber value) Value.KnownTo := by
  refine bind (stringArgument hvalue) fun text _ _ _ _ ↦ ?_
  dsimp only
  split
  · next integer hinteger =>
    obtain ⟨n, -, hfits⟩ := Option.bind_eq_some_iff.mp hinteger
    exact pure fun store _ _ ↦ Value.known_of_ofInt? hfits store
  · split
    · exact makeFloat _
    · exact zero

theorem charToString {value : Value} (hvalue : value.KnownTo world) :
    Upholds world (Storage.charToString value) Value.KnownTo :=
  bind (characterArgument hvalue) fun _ _ _ _ _ ↦ makeString _

theorem repeatCharacter {count character : Value} (hcount : count.KnownTo world)
    (hcharacter : character.KnownTo world) :
    Upholds world (Storage.repeatCharacter count character) Value.KnownTo :=
  bind (naturalArgument hcount) fun _ _ hgrows _ _ ↦
    bind (characterArgument (hgrows.known hcharacter)) fun _ _ _ _ _ ↦ makeString _

/-! ### Matching -/

theorem compileRegexp (pattern : String) (anchored : Bool) :
    Upholds world (Storage.compileRegexp pattern anchored) Anything := by
  unfold Storage.compileRegexp
  split
  · exact done
  · exact errorMessage _

end Storage.Upholds

/-- Soundness says nothing of the last match and of what was printed. -/
theorem Store.Sound.with_rest {store : Store} (hsound : store.Sound)
    (matchData : List (Option Nat)) (output : String) :
    { store with matchData := matchData, output := output : Store }.Sound ∧
      store.Grows { store with matchData := matchData, output := output } := by
  have hgrows : store.Grows { store with matchData := matchData, output := output } :=
    ⟨List.prefix_rfl, List.prefix_rfl, List.prefix_rfl⟩
  refine ⟨⟨?_, ?_, ?_, hsound.fixed, hsound.buffers, hsound.tracked⟩, hgrows⟩
  · exact fun object hmem ↦ hgrows.knownObject (hsound.objects object hmem)
  · exact fun symbol hmem ↦ hgrows.knownSymbol (hsound.symbols symbol hmem)
  · exact fun buffer hmem ↦ hgrows.known (hsound.handles buffer hmem)

namespace Storage.Upholds

variable {world : Store}

theorem recordMatch (program : Regexp.Program) (text : List Char) (start origin : Nat) :
    Upholds world (Storage.recordMatch program text start origin) Anything := by
  unfold Storage.recordMatch
  split
  · exact done
  · have hrecord (bounds : List (Option Nat)) : Upholds world
        (modify fun store ↦ { store with matchData := bounds }) Anything :=
      changing (fun _ ↦ rfl) fun store _ hsound ↦
        have hkept := hsound.with_rest bounds store.output
        ⟨hkept.1, hkept.2, trivial⟩
    exact bind (hrecord _) fun _ _ _ _ _ ↦ done

theorem writeOutput (text : String) : Upholds world (Storage.writeOutput text) Anything :=
  changing (fun _ ↦ rfl) fun store _ hsound ↦
    ⟨(hsound.with_rest store.matchData _).1, (hsound.with_rest store.matchData _).2, trivial⟩

/-- Where a match starts that has been looked for. -/
theorem matchedPosition (program : Regexp.Program) (chars : List Char) (place : Nat) :
    Upholds world (do
      match ← Storage.recordMatch program chars place 0 with
      | some position => return Value.ofNat position
      | none => return Value.nil : Storage Value) Value.KnownTo := by
  refine bind (recordMatch _ _ _ _) fun position _ _ _ _ ↦ ?_
  cases position with
  | some position => exact ofNat position
  | none => exact nil

theorem stringMatch {pattern text start : Value} (hpattern : pattern.KnownTo world)
    (htext : text.KnownTo world) (hstart : start.KnownTo world) :
    Upholds world (Storage.stringMatch pattern text start) Value.KnownTo := by
  refine bind (stringArgument hpattern) fun spelling first hfirst _ _ ↦ ?_
  refine bind (compileRegexp spelling false) fun program second hsecond _ _ ↦ ?_
  refine bind (stringArgument (by grind)) fun subject third hthird _ _ ↦ ?_
  dsimp only
  unfold Value.given?
  split_ifs
  · exact matchedPosition program _ 0
  · refine bind (fixnumArgument (by grind)) fun n fourth hfourth _ _ ↦ ?_
    split
    · exact matchedPosition program _ _
    · exact never_bind (argsOutOfRange (by grind) (by grind))

theorem lookingAt {pattern : Value} (hpattern : pattern.KnownTo world) :
    Upholds world (Storage.lookingAt pattern) Value.KnownTo := by
  refine bind (stringArgument hpattern) fun spelling _ _ _ _ ↦ ?_
  refine bind (compileRegexp spelling true) fun program _ _ _ _ ↦ ?_
  refine reading_bind (fun _ ↦ rfl) fun store _ _ ↦ ?_
  exact bind (recordMatch _ _ _ _) fun _ _ _ _ _ ↦ ofBool _

theorem matchBound {group : Value} (hgroup : group.KnownTo world) (place : Nat) :
    Upholds world (Storage.matchBound group place) Value.KnownTo := by
  refine bind (fixnumArgument hgroup) fun n later hlater _ _ ↦ ?_
  dsimp only
  split_ifs
  · exact never_bind (argsOutOfRange (hlater.known hgroup) (Value.known_ofInt 0 later))
  · refine reading_bind (fun _ ↦ rfl) fun store _ _ ↦ ?_
    split
    · exact ofNat _
    · exact nil

/-! ### Raising and printing -/

theorem raise {symbol data : Value} (hsymbol : symbol.KnownTo world) (hdata : data.KnownTo world) :
    Upholds world (Storage.raise symbol data) Value.KnownTo := by
  refine reading_bind (fun _ ↦ rfl) fun store hgrows _ ↦ ?_
  dsimp only
  split_ifs
  · refine bind (car (hgrows.known hdata)) fun raised first hfirst _ hraised ↦ ?_
    refine bind (cdr (by grind)) fun rest second hsecond _ hrest ↦ ?_
    exact never_bind (signal fun _ hlater _ ↦
      ⟨hlater.known (hsecond.known hraised), hlater.known hrest⟩)
  · exact signal fun _ hlater _ ↦ ⟨by grind, by grind⟩

theorem formatText (control : List Char) {arguments : List Value}
    (harguments : AllKnownTo arguments world) :
    Upholds world (Storage.formatText control arguments) Anything := by
  fun_induction Storage.formatText control arguments generalizing world with
  | case1 => exact done
  | case2 rest arguments ih => exact bind (ih harguments) fun _ _ _ _ _ ↦ done
  | case3 | case5 | case6 => exact errorMessage _
  | case4 directive rest _ _ value arguments ih =>
    obtain ⟨hvalue, harguments⟩ := List.forall_mem_cons.mp harguments
    refine reading_bind (fun _ ↦ rfl) fun store hgrows _ ↦ ?_
    dsimp only
    split
    · exact never_bind (wrongType rfl (hgrows.known hvalue))
    · refine bind (print _ _) fun _ later hlater _ _ ↦ ?_
      exact bind (ih (hlater.allKnown (hgrows.allKnown harguments))) fun _ _ _ _ _ ↦ done
  | case7 c rest arguments _ _ _ ih => exact bind (ih harguments) fun _ _ _ _ _ ↦ done

theorem formatArguments {arguments : List Value} (harguments : AllKnownTo arguments world) :
    Upholds world (Storage.formatArguments arguments) Anything := by
  refine here fun store hgrows hsound ↦ ?_
  have hknown := hgrows.allKnown harguments
  refine bind (stringArgument (hsound.known_argument hknown 0)) fun control later hlater _ _ ↦ ?_
  have hrest := hlater.allKnown (hknown.sublist (List.drop_subset 1 arguments))
  exact bind (formatText _ hrest) fun _ _ _ _ _ ↦ done

theorem format {arguments : List Value} (harguments : AllKnownTo arguments world) :
    Upholds world (Storage.format arguments) Value.KnownTo :=
  bind (formatArguments harguments) fun _ _ _ _ _ ↦ makeString _

theorem raiseFormatted {arguments : List Value} (harguments : AllKnownTo arguments world) :
    Upholds world (Storage.raiseFormatted arguments) Value.KnownTo :=
  bind (formatArguments harguments) fun _ _ _ _ _ ↦ errorMessage _

theorem printToString (value plain : Value) :
    Upholds world (Storage.printToString value plain) Value.KnownTo :=
  bind (print _ _) fun _ _ _ _ _ ↦ makeString _

theorem outputDestination {destination : Value} (hdestination : destination.KnownTo world) :
    Upholds world (Storage.outputDestination destination) Value.KnownTo := by
  unfold Storage.outputDestination Value.given?
  split_ifs
  · refine here fun store _ hsound ↦ ?_
    exact attempt_bind (symbolValue (hsound.builtin rfl)) (fun _ _ _ _ hvalue ↦ .value hvalue)
      fun _ _ _ _ ↦ t
  · exact .value hdestination

/-! ### Conditions -/

/-- The conditions of an error, or the parent itself if it has none. -/
theorem inheritConditions {conditions parents : List Value}
    (hconditions : AllKnownTo conditions world) (hparents : AllKnownTo parents world) :
    Upholds world (Storage.inheritConditions conditions parents) AllKnownTo := by
  induction parents generalizing world conditions with
  | nil => exact pure fun _ hgrows _ ↦ hgrows.allKnown hconditions
  | cons parent parents ih =>
    obtain ⟨hparent, hparents⟩ := List.forall_mem_cons.mp hparents
    have hadd {later : Store} (hlater : world.Grows later) {inherited : List Value}
        (hinherited : AllKnownTo inherited later) :
        Upholds later (Storage.inheritConditions (inherited.foldl
          (fun all condition ↦ if all.contains condition then all else all ++ [condition])
          conditions) parents) AllKnownTo := by
      refine ih ?_ (hlater.allKnown hparents)
      refine List.foldlRecOn (motive := fun all ↦ AllKnownTo all later) inherited _
        (hlater.allKnown hconditions) fun all hall condition hmem ↦ ?_
      split_ifs
      · exact hall
      · exact hall.append (.cons (hinherited condition hmem) .nil)
    have hitself : Upholds world ((Pure.pure [parent] : Storage (List Value)) >>= fun inherited ↦
        Storage.inheritConditions (inherited.foldl
          (fun all condition ↦ if all.contains condition then all else all ++ [condition])
          conditions) parents) AllKnownTo := by
      exact hadd (.refl world) (.cons hparent .nil)
    cases parent with
    | fixnum | object => exact hitself
    | symbol index =>
      refine reading_bind (fun _ ↦ rfl) fun store hgrows _ ↦ ?_
      cases store.symbols.property? index Symbols.errorConditions with
      | none => exact hitself.later hgrows
      | some list =>
        exact bind (leadingElements list) fun _ _ hlater _ hinherited ↦
          hadd (hgrows.trans hlater) hinherited

theorem defineError (symbol : Nat) (message : String) {parents : List Value}
    (hsymbol : (Value.symbol symbol).KnownTo world) (hparents : AllKnownTo parents world) :
    Upholds world (Storage.defineError symbol message parents) Anything := by
  refine bind (inheritConditions (.cons hsymbol .nil) hparents) fun _ first _ _ hconditions ↦ ?_
  refine bind (list hconditions) fun conditions second _ _ hlist ↦ ?_
  refine bind (makeString message) fun text third hthird _ htext ↦ ?_
  refine changing (fun _ ↦ rfl) fun store hgrows hsound ↦ ?_
  have hproperty : Symbols.errorConditions.KnownTo store := hsound.builtin rfl
  have hfirst := hsound.putProperty symbol hproperty (hgrows.known (hthird.known hlist))
  have hmessage : Symbols.errorMessage.KnownTo store := hsound.builtin rfl
  have hsecond := hfirst.1.putProperty symbol (hfirst.2.known hmessage)
    (hfirst.2.known (hgrows.known htext))
  exact ⟨hsecond.1, hfirst.2.trans hsecond.2, trivial⟩

theorem defineErrorAt {symbol : Value} (message : String) {parents : List Value}
    (hsymbol : symbol.KnownTo world) (hparents : AllKnownTo parents world) :
    Upholds world (Storage.defineErrorAt symbol message parents) Anything := by
  cases symbol with
  | symbol index => exact defineError index message hsymbol hparents
  | fixnum | object => exact done

theorem signalConditions (signal : Signal) :
    Upholds world (Storage.signalConditions signal) Anything := by
  cases signal with
  | error symbol data => exact errorConditions symbol
  | thrown | fatal => exact done

theorem catchesSignal (signal : Signal) (conditions : List Value) (handler : Handler) :
    Upholds world (Storage.catchesSignal signal conditions handler) Anything := by
  unfold Storage.catchesSignal
  split
  · exact done
  · exact coversConditions conditions _
  · exact done

/-- The handler that catches a signal stands before those further out. -/
theorem innermostMatch (signal : Signal) (conditions : List Value) (handlers : HandlerStack) :
    Upholds world (Storage.innermostMatch signal conditions handlers)
      fun found _ ↦ ∀ handler outer, found = some (handler, outer) →
        handler :: outer <:+ handlers := by
  induction handlers generalizing world with
  | nil => exact pure fun _ _ _ ↦ nofun
  | cons handler handlers ih =>
    refine bind (catchesSignal signal conditions handler) fun catches _ _ _ _ ↦ ?_
    split_ifs
    · refine pure fun _ _ _ ↦ ?_
      rintro _ _ ⟨⟩
      exact List.suffix_rfl
    · exact ih.mono fun found _ hfound innermost outer hsome ↦
        (hfound innermost outer hsome).trans (List.suffix_cons handler handlers)

theorem signalPayload {signal : Signal} (hsignal : AllKnownTo signal.values world) :
    Upholds world (Storage.signalPayload signal) fun payload ↦ AllKnownTo payload.toList := by
  cases signal with
  | error symbol data =>
    refine bind (cons (hsignal symbol (by simp [Signal.values]))
      (hsignal data (by simp [Signal.values]))) fun payload _ _ _ hpayload ↦ ?_
    exact pure fun _ hgrows _ ↦ .cons (hgrows.known hpayload) .nil
  | thrown tag value =>
    exact pure fun _ hgrows _ ↦ .cons (hgrows.known (hsignal value (by simp [Signal.values]))) .nil
  | fatal => exact pure fun _ _ _ ↦ .nil

theorem clauseConditions {clauses : List Value} (hclauses : AllKnownTo clauses world) :
    Upholds world (Storage.clauseConditions clauses) AllKnownTo := by
  induction clauses generalizing world with
  | nil => exact pure fun _ _ _ ↦ .nil
  | cons clause clauses ih =>
    obtain ⟨hclause, hclauses⟩ := List.forall_mem_cons.mp hclauses
    have hnext {later : Store} (hlater : world.Grows later) {named : List Value}
        (hnamed : AllKnownTo named later) : Upholds later (do
          return named ++ (← Storage.clauseConditions clauses)) AllKnownTo :=
      bind (ih (hlater.allKnown hclauses)) fun _ _ hlast _ hothers ↦
        pure fun _ hgrows _ ↦ hgrows.allKnown ((hlast.allKnown hnamed).append hothers)
    refine bind (car hclause) fun head first hfirst _ hhead ↦ ?_
    cases head with
    | symbol index =>
      exact hnext hfirst (.cons hhead .nil)
    | fixnum | object =>
      exact bind (elements hhead) fun _ _ hlater _ hnamed ↦ hnext (hfirst.trans hlater) hnamed

theorem coveringClause (conditions : List Value) {clauses : List Value}
    (hclauses : AllKnownTo clauses world) :
    Upholds world (Storage.coveringClause conditions clauses) Value.KnownTo := by
  induction clauses generalizing world with
  | nil => exact nil
  | cons clause clauses ih =>
    obtain ⟨hclause, hclauses⟩ := List.forall_mem_cons.mp hclauses
    refine reading_bind (fun _ ↦ rfl) fun store hgrows _ ↦ ?_
    refine bind (coversConditions conditions _) fun covers later hlater _ _ ↦ ?_
    split_ifs
    · exact .value (hlater.known (hgrows.known hclause))
    · exact ih (hlater.allKnown (hgrows.allKnown hclauses))

/-! ### Forms and arguments -/

theorem bindingParts {item : Value} (hitem : item.KnownTo world) :
    Upholds world (Storage.bindingParts item)
      fun parts store ↦ parts.1.KnownTo store ∧ parts.2.KnownTo store := by
  cases item with
  | symbol index => exact pure fun _ hgrows hsound ↦ ⟨hgrows.known hitem, hsound.known_nil⟩
  | fixnum | object =>
    refine bind (car hitem) fun symbol first hfirst _ hsymbol ↦ ?_
    refine bind (cdr (hfirst.known hitem)) fun rest second hsecond _ hrest ↦ ?_
    refine bind (car hrest) fun form third hthird _ hform ↦ pure fun _ hgrows _ ↦ ?_
    exact ⟨hgrows.known (hthird.known (hsecond.known hsymbol)), hgrows.known hform⟩

theorem specialForm? (head : Value) : Upholds world (Storage.specialForm? head) Anything := by
  cases head with
  | symbol index => exact reading_bind (fun _ ↦ rfl) fun _ _ _ ↦ done
  | fixnum | object => exact done

theorem wrongArgumentCount {α : Type} {gives : α → Store → Prop} (mandatory : Nat)
    (bound : ArityBound) (count : Nat) :
    Upholds world (Storage.wrongArgumentCount mandatory bound count : Storage α) gives := by
  refine here fun store _ hsound ↦ ?_
  refine bind (cons (Value.known_ofNat mandatory store) ?_) fun arity later _ _ harity ↦ ?_
  · cases bound with
    | some n => exact Value.known_ofNat n store
    | none => exact hsound.builtin rfl
  · exact error rfl (.pair harity (Value.known_ofNat count later))

theorem restArguments (place : Nat) {arguments : List Value}
    (harguments : AllKnownTo arguments world) :
    Upholds world (Storage.restArguments place arguments) Value.KnownTo :=
  list (harguments.sublist (List.drop_subset place arguments))

theorem templateSlots (template : Template) {arguments : List Value}
    (harguments : AllKnownTo arguments world) :
    Upholds world (Storage.templateSlots template arguments) AllKnownTo := by
  refine here fun store hgrows hsound ↦ ?_
  have hknown := hgrows.allKnown harguments
  have hslots : AllKnownTo (arguments.take template.positional ++
      List.replicate (template.positional - (arguments.take template.positional).length) Value.nil)
      store := by
    refine (hknown.sublist (List.take_subset _ _)).append fun value hmem ↦ ?_
    rw [List.eq_of_mem_replicate hmem]
    exact hsound.known_nil
  unfold Storage.templateSlots
  dsimp only
  split_ifs
  · refine bind (restArguments _ hknown) fun rest later hlater _ hrest ↦ pure fun _ hlast _ ↦ ?_
    exact hlast.allKnown ((hlater.allKnown hslots).append (.cons hrest .nil))
  · exact pure fun _ hlast _ ↦ hlast.allKnown hslots

theorem codeArguments {text constants maxDepth : Value} (htext : text.KnownTo world)
    (hconstants : constants.KnownTo world) (hdepth : maxDepth.KnownTo world) :
    Upholds world (Storage.codeArguments text constants maxDepth)
      fun parts ↦ AllKnownTo parts.2.1.toList := by
  refine bind (stringArgument htext) fun chars first hfirst _ _ ↦ ?_
  dsimp only
  split_ifs
  · exact never_bind (wrongType rfl (hfirst.known htext))
  · refine reading_bind (fun _ ↦ rfl) fun store hgrows hsound ↦ ?_
    cases hpool : store.heap.vector? constants with
    | none => exact wrongType rfl (by grind)
    | some pool =>
      refine bind (naturalArgument (by grind)) fun _ later hlater _ _ ↦ pure fun _ hlast _ ↦ ?_
      exact hlast.allKnown (hlater.allKnown (hsound.known_of_vector? hpool))

end Storage.Upholds

end LispMachine
