import LispMachine.Proofs.Run.Lawful

/-!
What a run finds when it starts belongs to whoever started it. The entries of the binding log are
there to be undone by its caller, and the handlers are there to catch what the caller awaits.

Catches are respected by every run (`Request.exists_catch_of_thrown`): a throw that comes out of it
goes to a catch that was there before. Entries are respected by a run in which no code has more
entries undone than there are above those that were found (`Request.bindings_eq`). That condition is
needed. An instruction that pops a handler first asks whether the frame has pushed it, but one that
undoes bindings does not ask whose they are (`Request.bindings_not_kept`).
-/

set_option autoImplicit false

namespace LispMachine

open LispMachine.Action Storage Engine

/-! ### Runs under a watch -/

/-- Runs by companions with equal backgrounds end alike, unless the first is refused to go on. The
binding log is as long as before when they give a value, and not longer when they stop. -/
theorem Request.sameEnd {caller companion : Caller}
    (hcompanions : WatchedCompanions (.equal False) caller companion) (request : Request)
    (machine : Machine) :
    SameEnd
      (fun value value' after after' ↦
        value = value' ∧ after = after' ∧ after.bindings.length = machine.bindings.length)
      (fun _ after after' ↦
        after = after' ∧ after.bindings.length ≤ machine.bindings.length)
      (request.run caller machine) (request.run companion machine) := by
  have htogether : Together (.equal False) machine.handlers machine.handlers machine.evalDepth
      machine machine := ⟨rfl, rfl, rfl, rfl, rfl, rfl, rfl, rfl, rfl, nofun⟩
  refine ((request.agree hcompanions _ _ _ _ (HandlerStack.Alike.refl machine.handlers)).conseq
    (fun _ _ hstart ↦ hstart) (fun _ _ _ _ hdone ↦ ?_) fun _ _ _ hdone ↦ ?_) machine machine
    ⟨htogether, rfl⟩
  · exact ⟨hdone.1, hdone.2.1.eq_of_equal, hdone.2.2⟩
  · exact ⟨hdone.1.eq_of_equal, hdone.2⟩

/-- A run that finishes is the run by the companion, which permits more. -/
theorem Request.run_eq_of_companions {caller companion : Caller}
    (hcompanions : WatchedCompanions (.equal False) caller companion) {request : Request}
    {machine : Machine} (hfinishes : Finishes (request.run caller machine)) :
    request.run companion machine = request.run caller machine := by
  have hend := request.sameEnd hcompanions machine
  generalize request.run caller machine = watched at hend hfinishes ⊢
  generalize request.run companion machine = free at hend ⊢
  cases hend with
  | ok hdone =>
    obtain ⟨rfl, rfl, -⟩ := hdone
    rfl
  | signal hdone => rw [hdone.1]
  | exhausted => exact absurd rfl (hfinishes _ _)

/-- A run that finishes under a watch is the run without the watch. -/
theorem Request.run_eq_of_finishes {watch : Event → Machine → Bool} {request : Request}
    {steps : Nat} {machine : Machine}
    (hfinishes : Finishes (request.run (.watched watch steps) machine)) :
    request.run (.bounded steps) machine = request.run (.watched watch steps) machine :=
  run_eq_of_companions (companions_equal (fun _ _ _ ↦ rfl) steps) hfinishes

theorem Request.ends_length (request : Request) (steps : Nat) (machine : Machine) :
    EndsAs (fun _ after ↦ after.bindings.length = machine.bindings.length)
      (fun _ after ↦ after.bindings.length ≤ machine.bindings.length)
      (request.run (.bounded steps) machine) := by
  have hcompanions : WatchedCompanions (.equal False) (.bounded steps) (.bounded steps) :=
    companions_equal (fun _ _ _ ↦ rfl) steps
  have hend := request.sameEnd hcompanions machine
  generalize request.run (.bounded steps) machine = run at hend ⊢
  cases hend with
  | ok hdone => exact .ok hdone.2.2
  | signal hdone => exact .signal hdone.2
  | exhausted => exact .exhausted

/-! ### Catches -/

/-- The law that every machine meets. -/
def Law.vacuous : Law where
  holds _ := True
  within _ := True
  stored _ _ := trivial
  handled _ _ := trivial
  nested _ _ := trivial
  received _ := trivial
  noticed _ := trivial
  background _ _ _ _ _ _ := trivial
  logged _ _ := trivial
  taken _ _ _ _ := trivial
  marked _ := trivial

theorem HandlerStack.exists_of_hasCatch {handlers : HandlerStack} {tag : Value}
    (hcatch : handlers.hasCatch tag = true) :
    ∃ handler ∈ handlers, handler.kind = .catching ∧ handler.tag = tag := by
  obtain ⟨handler, hmem, hboth⟩ := List.any_eq_true.mp hcatch
  rw [Bool.and_eq_true, beq_iff_eq, beq_iff_eq] at hboth
  exact ⟨handler, hmem, hboth⟩

/-- A throw that comes out of a run goes to a catch that was there when the run started. -/
theorem Request.exists_catch_of_thrown (request : Request) (steps : Nat) (machine : Machine)
    (tag value : Value)
    (hthrown : StopsWith (.thrown tag value) (request.run (.bounded steps) machine)) :
    ∃ handler ∈ machine.handlers, handler.kind = .catching ∧ handler.tag = tag := by
  obtain ⟨after, hrun⟩ := hthrown
  have hobeyed : Law.vacuous.Obeyed (.bounded steps) :=
    Law.obeyed_watched (fun _ _ ↦ trivial) steps
  have hend := request.keeps_run hobeyed machine.handlers machine.evalDepth machine
    ⟨trivial, rfl, rfl⟩
  rw [hrun] at hend
  cases hend with
  | signal hdone => exact HandlerStack.exists_of_hasCatch hdone.2

/-- A function throws past a catch of its own, which is for another tag, to the one that it was
called under. -/
theorem Request.exists_catch_of_thrown_past :
    let subject : Function :=
      { code := #[0xC0, 0x32, 0x09, 0x00, 0xC1, 0xC2, 0xC0, 0x22, 0x30, 0x87]
        constants := #[.fixnum 7, .object 0, .t], maxDepth := 4, parameters := .dynamic [] }
    let machine : Machine :=
      { heap := ((Heap.empty 1).allocate (.primitive 115 "throw")).2, settings := {}
        functions := #[subject], handlers := [⟨.t, .catching, 0, 0, .host⟩] }
    StopsWith (.thrown .t (.fixnum 7)) ((Request.invoking 0 []).run (.bounded 8) machine) ∧
      ∃ handler ∈ machine.handlers, handler.kind = .catching ∧ handler.tag = .t := by
  intro subject machine
  have hthrown : StopsWith (.thrown .t (.fixnum 7))
      ((Request.invoking 0 []).run (.bounded 8) machine) := by decide +kernel
  exact ⟨hthrown, Request.exists_catch_of_thrown _ 8 machine .t _ hthrown⟩

/-! ### Bindings -/

/-- The law of a log that has the given entries at its end, where they were entered first. -/
def Law.above (base : BindingLog) : Law where
  holds machine := base <:+ machine.bindings
  within mark := base.length ≤ mark
  stored _ hbase := hbase
  handled _ hbase := hbase
  nested _ hbase := hbase
  received hbase := hbase
  noticed hbase := hbase
  background _ _ _ _ _ hbase := hbase
  logged entry hbase := hbase.trans (List.suffix_cons entry _)
  taken := by
    intro machine entry rest mark hwithin hlog hmark hbase
    rw [hlog, List.suffix_cons_iff] at hbase
    rcases hbase with rfl | hrest
    · exact absurd hmark (Nat.not_le.mpr hwithin)
    · exact hrest
  marked hbase := hbase.length_le

/-- The watch that lets code have entries undone only above a mark. -/
def unbindsAbove (mark : BindingMark) : Event → Machine → Bool
  | .unbinding count, machine => mark ≤ machine.bindings.length - count
  | _, _ => true

/-- If no code has entries undone that were there when the run started, then the log is the same
afterwards, entry by entry, however the run ends. -/
theorem Request.bindings_eq (request : Request) (steps : Nat) (machine : Machine)
    (hown : Finishes (request.run
      (.watched (unbindsAbove machine.bindings.length) steps) machine)) :
    EndsAs (fun _ after ↦ after.bindings = machine.bindings)
      (fun _ after ↦ after.bindings = machine.bindings)
      (request.run (.bounded steps) machine) := by
  have hobeyed : (Law.above machine.bindings).Obeyed
      (.watched (unbindsAbove machine.bindings.length) steps) := by
    refine Law.obeyed_watched (fun {current count} _ hpermits ↦ ?_) steps
    have habove : machine.bindings.length ≤ current.bindings.length - count :=
      of_decide_eq_true hpermits
    exact habove
  have hkept := request.keeps_run hobeyed machine.handlers machine.evalDepth machine
    ⟨List.suffix_rfl, rfl, rfl⟩
  have hlength := request.ends_length steps machine
  rw [← Request.run_eq_of_finishes hown] at hkept
  generalize request.run (.bounded steps) machine = run at hkept hlength ⊢
  cases hkept with
  | ok hat =>
    cases hlength with
    | ok hsame => exact .ok (hat.holds.eq_of_length_le (Nat.le_of_eq hsame)).symm
  | signal hdone =>
    cases hlength with
    | signal hless => exact .signal (hdone.1.holds.eq_of_length_le hless).symm
  | exhausted => exact .exhausted

/-- A function that undoes the one entry it makes leaves what it found. -/
theorem Request.bindings_eq_saving :
    let subject : Function :=
      { code := #[0x72, 0x29, 0xC0, 0x87], constants := #[.t], maxDepth := 1
        parameters := .dynamic [] }
    let machine : Machine :=
      { heap := .empty 1, settings := {}, functions := #[subject]
        bindings := [.restriction 0 none] }
    let request : Request := .invoking 0 []
    Finishes (request.run (.watched (unbindsAbove 1) 5) machine) ∧
      EndsAs (fun _ after ↦ after.bindings = [.restriction 0 none])
        (fun _ after ↦ after.bindings = [.restriction 0 none])
        (request.run (.bounded 5) machine) := by
  intro subject machine request
  have hown : Finishes (request.run (.watched (unbindsAbove 1) 5) machine) := by decide +kernel
  exact ⟨hown, Request.bindings_eq request 5 machine hown⟩

/-- A function that undoes an entry without having made one takes it from its caller, and nothing is
noticed if it makes another. The log is as long as it was, but it is not the same. -/
theorem Request.bindings_not_kept :
    let subject : Function :=
      { code := #[0x29, 0x72, 0xC0, 0x87], constants := #[.t], maxDepth := 1
        parameters := .dynamic [] }
    let machine : Machine :=
      { heap := .empty 1, settings := {}, functions := #[subject]
        bindings := [.restriction 0 none] }
    ¬ EndsAs (fun _ after ↦ machine.bindings <:+ after.bindings)
      (fun _ after ↦ machine.bindings <:+ after.bindings)
      ((Request.invoking 0 []).run (.bounded 5) machine) := by
  decide +kernel

end LispMachine
