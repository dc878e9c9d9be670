import LispMachine.Proofs.Run.Resuming
import LispMachine.Proofs.Translation.Places

/-!
Boundaries along runs. The scan cuts a code string into instructions without running it, and goes on
at the next byte where it meets one that starts no instruction, so it could cut otherwise than a run
does. It does not, as long as every jump goes to a boundary. Control goes on to the next
instruction, to the target of a branch, or to that of a handler (`Code.LeadsTo`), and boundaries are
closed under all three (`Code.Boundary.of_reaches`). An interpreted frame comes only to offsets that
control can get to from the start of the code (`reaches_of_stateAfter`): a handler that receives a
signal has been pushed by the frame itself, at an offset to which the frame came before.

The main statement is `fetches_at_boundaries`: what an invocation fetches is what the scan holds
there, and what native code has at the place.
-/

set_option autoImplicit false

namespace LispMachine

open LispMachine.Action Storage Engine

namespace Code

variable {code : Code} {offset target : Nat}

/-! ### What the scan holds -/

theorem mem_scanFrom {steps : Nat} {scanned : Scanned}
    (hscanned : scanned ∈ code.scanFrom steps offset) :
    scanned.offset < code.size ∧ scanned.content = code.decode scanned.offset := by
  induction steps generalizing offset with
  | zero => cases hscanned
  | succ steps ih =>
    by_cases hwithin : offset < code.size
    · rw [scanFrom_succ hwithin] at hscanned
      rcases List.mem_cons.mp hscanned with rfl | hrest
      · refine ⟨hwithin, ?_⟩
        dsimp only
      · exact ih hrest
    · rw [scanFrom, if_neg hwithin] at hscanned
      cases hscanned

/-- At a boundary the scan holds just what is decoded there, and at the end of the code nothing. -/
theorem Boundary.mem_scan_iff (hboundary : code.Boundary offset) (scanned : Scanned) :
    scanned ∈ code.scan ∧ scanned.offset = offset ↔
      offset < code.size ∧ scanned = ⟨offset, code.decode offset⟩ := by
  constructor
  · rintro ⟨hscanned, rfl⟩
    obtain ⟨hwithin, hcontent⟩ := mem_scanFrom hscanned
    exact ⟨hwithin, hcontent ▸ rfl⟩
  · rintro ⟨hwithin, rfl⟩
    obtain ⟨before, after, hscan, -⟩ := hboundary.split hwithin
    rw [hscan]
    exact ⟨List.mem_append_right _ List.mem_cons_self, rfl⟩

theorem isBoundary_iff : code.isBoundary offset = true ↔ code.Boundary offset := by
  refine ⟨boundary_of_isBoundary, fun hboundary ↦ ?_⟩
  simp only [isBoundary, Bool.or_eq_true, beq_iff_eq, List.any_eq_true]
  rcases Nat.lt_or_eq_of_le hboundary.le_size with hwithin | hend
  · obtain ⟨hscanned, hoffset⟩ := (hboundary.mem_scan_iff _).mpr ⟨hwithin, rfl⟩
    exact .inr ⟨_, hscanned, hoffset⟩
  · exact .inl hend

/-- Code can be compiled just when every target that needs a label is a boundary. -/
theorem misplacedTarget?_eq_none_iff :
    code.misplacedTarget? = none ↔ ∀ target ∈ code.labelTargets, code.isBoundary target = true := by
  simp [misplacedTarget?, isBoundary, List.min?_eq_none_iff, or_iff_not_imp_left]

/-! ### Where control can get -/

/-- Where control can go from an offset: on to the next instruction, to the target of a branch that
lies within the code, or to that of a handler which is pushed at the offset. -/
inductive LeadsTo (code : Code) (offset : Nat) : Nat → Prop where
  | on {instruction : Instruction} {next : Nat}
      (hdecode : code.decode offset = .ok (instruction, next))
      (hfalls : instruction.isTerminator = false) : LeadsTo code offset next
  | jump {instruction : Instruction} {next target : Nat}
      (hdecode : code.decode offset = .ok (instruction, next))
      (htarget : code.labelTarget? instruction = some target) : LeadsTo code offset target

theorem Boundary.of_leadsTo (hlabels : code.misplacedTarget? = none)
    (hboundary : code.Boundary offset) (hleads : code.LeadsTo offset target) :
    code.Boundary target := by
  -- Nothing is decoded at the end of the code.
  have hwithin {instruction : Instruction} {next : Nat}
      (hdecode : code.decode offset = .ok (instruction, next)) : offset < code.size :=
    Nat.lt_of_lt_of_le (decode_sound hdecode).lt_next (decode_sound hdecode).next_le
  cases hleads with
  | on hdecode =>
    obtain ⟨_, _, -, -, hnext, -⟩ := hboundary.split (hwithin hdecode)
    exact following_of_decode hdecode ▸ hnext
  | jump hdecode htarget =>
    obtain ⟨hscanned, -⟩ := (hboundary.mem_scan_iff _).mpr ⟨hwithin hdecode, rfl⟩
    exact boundary_of_labelTarget hlabels (hdecode ▸ hscanned) htarget

/-- Boundaries are closed under all that control can do. -/
theorem Boundary.of_reaches (hlabels : code.misplacedTarget? = none)
    (hboundary : code.Boundary offset)
    (hreaches : Relation.ReflTransGen code.LeadsTo offset target) :
    code.Boundary target := by
  induction hreaches with
  | refl => exact hboundary
  | tail _ hleads ih => exact ih.of_leadsTo hlabels hleads

end Code

/-- At a boundary native code has the translation of what is decoded there, which is a trap where
nothing can be decoded, and behind the code the trap for running off the end. -/
theorem Function.translate_at_boundary {function : Function} {offset : Nat}
    (hboundary : function.code.Boundary offset) (guarded : Bool) :
    ∃ sites, (function.translate guarded).steps[function.code.place offset]? = some
      (if offset < function.code.size then
        function.translateScanned guarded sites ⟨offset, function.code.decode offset⟩
      else ⟨none, .trap (.fellOffEnd function.displayName)⟩) := by
  rcases Nat.lt_or_eq_of_le hboundary.le_size with hwithin | rfl
  · obtain ⟨before, after, hscan, hplace, -⟩ := hboundary.split hwithin
    refine ⟨handlersIn before, ?_⟩
    rw [if_pos hwithin, ← hplace]
    exact translate_step hscan guarded
  · refine ⟨0, ?_⟩
    rw [if_neg (Nat.lt_irrefl _), Code.place_size]
    exact translate_end function guarded

/-! ### Where interpreted frames get -/

section Frames

variable {caller : Caller} {frame : Frame} {low : HandlerStack} {activation : Activation}
  {machine after : Machine} {target : Nat} {stack : OperandStack}

/-- A branch that leaves the frame running at its target has it within the code. -/
theorem target_le_of_branch {offset next : Nat} {rest : OperandStack} {kind : BranchKind}
    {outcome : StepOutcome}
    (hbranch : branch caller frame offset next rest kind target machine = .ok outcome after) :
    target ≤ frame.function.code.size := by
  unfold branch at hbranch
  split_ifs at hbranch with hrange
  · cases hbranch
  · exact Nat.le_of_not_lt hrange

/-- A step that leaves the frame running goes where control can go. -/
theorem step_leadsTo
    (hstep : step caller frame activation machine = .ok (.running target stack) after) :
    frame.function.code.LeadsTo activation.offset target := by
  obtain ⟨⟨instruction, next⟩, between, hfetch, hexecute⟩ := bind_eq_ok hstep
  obtain ⟨opcode, -, hdecode, -⟩ := fetch_eq_ok hfetch
  have hlands : StepOutcome.Lands next activation.stack instruction (.running target stack) :=
    execute_lands caller frame activation.offset next activation.stack
      (Code.decode_sound hdecode).small.unsigned between _ after hexecute
  cases hlands with
  | fallen hfalls => exact .on hdecode hfalls
  | taken => exact .jump hdecode (if_pos (target_le_of_branch hexecute))

/-- The handler, if it resumes at an offset, does so at one to which control can get from the start
of the code. -/
def Handler.ResumesWithin (code : Code) (handler : Handler) : Prop :=
  ∀ target, handler.resume = .offset target → Relation.ReflTransGen code.LeadsTo 0 target

/-- The frame stands where control can get from the start of the code, and so do its handlers. -/
structure Frame.OnCourse (frame : Frame) (low : HandlerStack) (state : FrameState) : Prop where
  reaches : Relation.ReflTransGen frame.function.code.LeadsTo 0 state.1.offset
  owns : state.2.OwnsAbove low (Handler.ResumesWithin frame.function.code)

theorem PushesHandler.resumesWithin {state : FrameState} {handler : Handler}
    (hpushes : PushesHandler frame state handler)
    (hreaches : Relation.ReflTransGen frame.function.code.LeadsTo 0 state.1.offset) :
    handler.ResumesWithin frame.function.code := by
  obtain ⟨kind, target, next, tag, rest, hdecode, -, rfl⟩ := hpushes
  rintro _ hresume
  cases hresume
  exact hreaches.tail (.jump hdecode rfl)

/-- A frame that goes on stays on course: it goes where control can go, or a handler that it owns
receives a signal, and then it stands where that handler resumes. -/
theorem Frame.OnCourse.next (hobeyed : Law.vacuous.Obeyed caller)
    (hbase : frame.handlerBase = low.length) {state later : FrameState}
    (hcourse : frame.OnCourse low state) (hnext : next? caller frame state = some later) :
    frame.OnCourse low later := by
  refine ⟨?_, (ownsAbove_next hobeyed hbase hnext hcourse.owns).mono fun handler hhandler ↦ ?_⟩
  · obtain ⟨offset, stack, after, hadvance, rfl⟩ := next?_eq_some hnext
    rcases dispatching_eq_ok hadvance with hstep |
      ⟨reason, between, handler, payload, dispatched, hstops, hdispatch, hresumed⟩
    · exact hcourse.reaches.tail (step_leadsTo hstep)
    · obtain ⟨target, rest, hrunning, hresume⟩ := resumeAt_yields _ _ _ _ _ _ hresumed
      cases hrunning
      have hsame : between.handlers = state.2.handlers := by
        have hends : EndsAs _ (fun _ after ↦ after.handlers = state.2.handlers)
            (step caller frame state.1 state.2) := endsAs_step hobeyed state
        rw [hstops] at hends
        cases hends with
        | signal hsame => exact hsame
      rw [hbase] at hdispatch
      exact (ownsAbove_of_dispatch hobeyed (hcourse.owns.congr hsame) hdispatch).2 _ hresume
  · exact hhandler.elim id fun hpushes ↦ hpushes.resumesWithin hcourse.reaches

/-- A frame that starts at the start of the code, without handlers of its own, comes only to offsets
to which control can get from there. -/
theorem reaches_of_stateAfter (hobeyed : Law.vacuous.Obeyed caller) {start state : FrameState}
    (hzero : start.1.offset = 0) (hbase : frame.handlerBase = start.2.handlers.length) {count : Nat}
    (hstate : stateAfter caller frame count start = some state) :
    Relation.ReflTransGen frame.function.code.LeadsTo 0 state.1.offset := by
  refine (holds_of_steps (motive := fun _ state ↦ frame.OnCourse start.2.handlers state)
    (fun count ↦ stateAfter caller frame count start) stateAfter_succ_eq_bind
    (fun _ hstart ↦ ?_) (fun _ _ _ _ hnext hcourse ↦ hcourse.next hobeyed hbase hnext)
    hstate).reaches
  cases hstart
  exact ⟨hzero ▸ .refl, .of_handlers_eq rfl⟩

/-- What receives the arguments leaves the handlers alone. -/
theorem handlers_of_receiveArguments (hobeyed : Law.vacuous.Obeyed caller)
    {parameters : Parameters} {arguments : List Value} {entered : Machine}
    {empty : OperandStack}
    (hreceived : receiveArguments caller parameters arguments empty machine = .ok stack entered) :
    entered.handlers = machine.handlers := by
  have hkeeps : Law.vacuous.Keeps (receiveArguments caller parameters arguments empty) :=
    (Called.receiveArguments parameters arguments empty).keeps hobeyed
  have hends := hkeeps machine.handlers machine.evalDepth machine ⟨trivial, rfl, rfl⟩
  rw [hreceived] at hends
  cases hends with
  | ok hat => exact hat.handlers_eq

end Frames

/-- What an interpreted function fetches is what the scan holds. When every target of the scan that
needs a label is a boundary, each offset to which an invocation comes, from the start of the code
and through whatever branches and handlers, is a boundary too. If it is not the end of the code, the
scan holds there the instruction that is decoded, or the fault where none is, and nothing else.
Native code has at the place of the offset the translation of this instruction or a trap with this
fault, and the trap for running off the end at the place of the end. -/
theorem fetches_at_boundaries {subject : Function}
    (hplaced : ∀ target ∈ subject.code.labelTargets, subject.code.isBoundary target = true)
    (watch : Event → Machine → Bool) (steps : Nat) {machine entered : Machine}
    {arguments : List Value} {stack : OperandStack}
    (hreceived : receiveArguments (.watched watch steps) subject.parameters arguments
      (.empty subject.stackLimit) machine = .ok stack entered)
    {count : Nat} {state : FrameState}
    (hstate : stateAfter (.watched watch steps)
      ⟨subject, entered.bindings.length, machine.handlers.length⟩ count
      (⟨0, stack, 0⟩, { entered with interpretedCalls := entered.interpretedCalls + 1 }) =
        some state) :
    subject.code.isBoundary state.1.offset = true ∧
      (∀ scanned, scanned ∈ subject.code.scan ∧ scanned.offset = state.1.offset ↔
        state.1.offset < subject.code.size ∧
          scanned = ⟨state.1.offset, subject.code.decode state.1.offset⟩) ∧
      ∀ guarded, ∃ sites,
        (subject.translate guarded).steps[subject.code.place state.1.offset]? = some
          (if state.1.offset < subject.code.size then
            subject.translateScanned guarded sites
              ⟨state.1.offset, subject.code.decode state.1.offset⟩
          else ⟨none, .trap (.fellOffEnd subject.displayName)⟩) := by
  have hobeyed : Law.vacuous.Obeyed (.watched watch steps) :=
    Law.obeyed_watched (fun _ _ ↦ trivial) steps
  have hbase : machine.handlers.length = entered.handlers.length :=
    congrArg List.length (handlers_of_receiveArguments hobeyed hreceived).symm
  have hreaches : Relation.ReflTransGen subject.code.LeadsTo 0 state.1.offset :=
    reaches_of_stateAfter hobeyed rfl hbase hstate
  have hboundary : subject.code.Boundary state.1.offset :=
    subject.code.boundary_zero.of_reaches (Code.misplacedTarget?_eq_none_iff.mpr hplaced) hreaches
  exact ⟨Code.isBoundary_iff.mpr hboundary, hboundary.mem_scan_iff,
    Function.translate_at_boundary hboundary⟩

/-- A function jumps over a byte that starts no instruction and throws to its own catch. Its seventh
instruction does not come to its end, and the next is fetched where the handler resumes. -/
theorem fetches_at_boundaries_of_throw :
    let subject : Function :=
      { code := #[0xC0, 0x32, 0x0C, 0x00, 0x82, 0x08, 0x00, 0xB4, 0xC1, 0xC0, 0xC2, 0x22, 0x87]
        constants := #[.t, .object 0, .fixnum 7], maxDepth := 3, parameters := .dynamic [] }
    let machine : Machine :=
      { heap := ((Heap.empty 1).allocate (.primitive 115 "throw")).2, settings := {}
        functions := #[] }
    (∀ target ∈ subject.code.labelTargets, subject.code.isBoundary target = true) ∧
      ∃ state, stateAfter (.bounded 8) ⟨subject, 0, 0⟩ 7
          (⟨0, .empty 3, 0⟩, { machine with interpretedCalls := 1 }) = some state ∧
        state.1.offset = 12 ∧ subject.code.isBoundary 12 = true ∧
        (∀ scanned, scanned ∈ subject.code.scan ∧ scanned.offset = 12 ↔
          scanned = ⟨12, .ok (.ret, 13)⟩) ∧
        (subject.translate true).steps[subject.code.place 12]? = some ⟨some ⟨1, 0⟩, .ret⟩ := by
  intro subject machine
  have hplaced : ∀ target ∈ subject.code.labelTargets, subject.code.isBoundary target = true := by
    decide +kernel
  have hruns : ∃ state ∈ stateAfter (.bounded 8) ⟨subject, 0, 0⟩ 7
      (⟨0, .empty 3, 0⟩, { machine with interpretedCalls := 1 }), state.1.offset = 12 := by
    decide +kernel
  obtain ⟨state, hstate, hoffset⟩ := hruns
  have hdecode : subject.code.decode 12 = .ok (.ret, 13) := by decide +kernel
  have hreceived : receiveArguments (.watched (fun _ _ ↦ true) 8) subject.parameters []
      (.empty subject.stackLimit) machine = .ok (.empty 3) machine := rfl
  obtain ⟨hboundary, hscan, htranslated⟩ :=
    fetches_at_boundaries hplaced (fun _ _ ↦ true) 8 hreceived hstate
  rw [hoffset, hdecode] at hscan htranslated
  rw [hoffset] at hboundary
  refine ⟨hplaced, state, hstate, hoffset, hboundary, fun scanned ↦ ?_, ?_⟩
  · rw [hscan scanned]
    exact and_iff_right (by decide)
  · obtain ⟨sites, hstep⟩ := htranslated true
    exact hstep

end LispMachine
