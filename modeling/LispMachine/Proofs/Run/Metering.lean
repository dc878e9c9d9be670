import Mathlib.Algebra.BigOperators.Group.Finset.Piecewise
import Mathlib.Data.FinEnum
import LispMachine.Proofs.Run.Journal

/-!
What the meter counts. A counter holds, up to the largest number that it can hold, how often what it
counts has happened: `Machine.Counts` says so of the meters of two machines, and
`Journals.counts` of a whole run, where `tally` counts in the fetches of one frame.

A frame remembers its last opcode over calls and over signals that it has caught, so the pairs that
are counted are those of neighbours among the fetches of the frame. The byte zero stands for the
place before the first fetch. It is never remembered, because it starts no instruction
(`Journals.zero_not_mem_dropLast`). So every fetch but the first of a frame is counted in exactly
one pair: this is the balance that `Request.meter_counts` ends with. -/

set_option autoImplicit false

namespace LispMachine

open LispMachine.Action Storage Engine

variable {α : Type}

/-! ### One fetch -/

namespace Meter

/-- Every counter holds a number that it can hold. -/
def Capped (meter : Meter) : Prop :=
  ∀ previous opcode, meter.pairCount previous opcode ≤ maxCount

theorem lookup_bump (pair key : UInt8 × UInt8) (counts : List ((UInt8 × UInt8) × Nat)) :
    ((bump pair counts).lookup key).getD 0 =
      if key = pair then min ((counts.lookup key).getD 0 + 1) maxCount
      else (counts.lookup key).getD 0 := by
  induction counts with
  | nil =>
    rw [bump, List.lookup_cons]
    by_cases hkey : key = pair
    · rw [if_pos hkey, hkey, beq_self_eq_true]
      rfl
    · rw [if_neg hkey, beq_eq_false_iff_ne.mpr hkey]
  | cons entry rest ih =>
    obtain ⟨other, n⟩ := entry
    rw [bump]
    by_cases hother : other = pair
    · subst hother
      rw [if_pos rfl, List.lookup_cons, List.lookup_cons]
      by_cases hkey : key = other
      · rw [if_pos hkey, hkey, beq_self_eq_true]
        rfl
      · rw [if_neg hkey, beq_eq_false_iff_ne.mpr hkey]
    · rw [if_neg hother, List.lookup_cons, List.lookup_cons]
      by_cases hkey : key = other
      · rw [hkey, beq_self_eq_true, if_neg hother]
      · rw [beq_eq_false_iff_ne.mpr hkey]
        exact ih

/-- Whether a fetch of an opcode after another is counted under a pair. -/
def countsUnder (previous opcode : UInt8) (fetch : UInt8 × UInt8) : Bool :=
  fetch.2 = opcode ∧ (previous = 0 ∨ fetch.1 = previous)

/-- A fetch adds one to the counter of its opcode and, unless it is the first, to that of its pair.
-/
theorem pairCount_record (meter : Meter) (fetch : UInt8 × UInt8) (previous opcode : UInt8) :
    (meter.record fetch.1 fetch.2).pairCount previous opcode =
      if countsUnder previous opcode fetch then min (meter.pairCount previous opcode + 1) maxCount
      else meter.pairCount previous opcode := by
  obtain ⟨last, fetched⟩ := fetch
  unfold pairCount record countsUnder
  dsimp only
  by_cases hlast : last = 0
  · subst hlast
    rw [if_pos rfl, lookup_bump]
    grind
  · rw [if_neg hlast, lookup_bump, lookup_bump]
    grind

end Meter

/-! ### Fetches of a frame -/

/-- The opcodes that were fetched by the frame that a note is about. -/
def Note.fetches : Note → List UInt8
  | .interpreted opcodes => opcodes
  | .compiled _ | .failed _ => []

/-- How many of the fetches of a frame are counted under a pair. -/
def tally (previous opcode : UInt8) (fetches : List UInt8) : Nat :=
  ((0 :: fetches).zip fetches).countP (Meter.countsUnder previous opcode)

/-- How many of the fetches in all frames are counted under a pair. -/
def tallyAll (notes : List Note) (previous opcode : UInt8) : Nat :=
  (notes.map fun note ↦ tally previous opcode note.fetches).sum

theorem tallyAll_append (notes later : List Note) (previous opcode : UInt8) :
    tallyAll (notes ++ later) previous opcode =
      tallyAll notes previous opcode + tallyAll later previous opcode := by
  unfold tallyAll
  rw [List.map_append, List.sum_append]

/-- Under the byte zero every fetch of an opcode is counted. -/
theorem tally_zero (opcode : UInt8) (fetches : List UInt8) :
    tally 0 opcode fetches = fetches.count opcode := by
  have hsnd : ((0 :: fetches).zip fetches).map Prod.snd = fetches :=
    List.map_snd_zip (Nat.le_succ _)
  calc tally 0 opcode fetches
      = (((0 :: fetches).zip fetches).map Prod.snd).count opcode := by
        unfold tally Meter.countsUnder
        rw [List.count_eq_countP, List.countP_map]
        exact List.countP_congr (by simp)
    _ = fetches.count opcode := by rw [hsnd]

/-- Under another byte those are counted that come right after a fetch of it. -/
theorem tally_of_ne {previous : UInt8} (hprevious : previous ≠ 0) (opcode : UInt8)
    (fetches : List UInt8) :
    tally previous opcode fetches = (fetches.zip fetches.tail).count (previous, opcode) := by
  unfold tally Meter.countsUnder
  cases fetches with
  | nil => rfl
  | cons first rest =>
    rw [List.zip_cons_cons, List.countP_cons_of_neg (by simp [hprevious, hprevious.symm]),
      List.count_eq_countP]
    exact List.countP_congr (by simp [hprevious, Prod.ext_iff, and_comm])

/-- In a list of fetches with the byte zero nowhere but at the end, every fetch but the first has
one that is not zero before it. -/
theorem sum_count_pairs {fetches : List UInt8} (hzero : 0 ∉ fetches.dropLast) (opcode : UInt8) :
    ∑ previous ∈ Finset.univ.erase 0, (fetches.zip fetches.tail).count (previous, opcode) +
      (if fetches.head? = some opcode then 1 else 0) = fetches.count opcode := by
  induction fetches with
  | nil => simp
  | cons first rest ih =>
    cases rest with
    | nil => simp [List.count_cons]
    | cons second rest =>
      rw [List.dropLast_cons_cons, List.mem_cons, not_or] at hzero
      have hpairs (previous : UInt8) :
          ((first :: second :: rest).zip (second :: rest)).count (previous, opcode) =
            ((second :: rest).zip rest).count (previous, opcode) +
              if first = previous then (if second = opcode then 1 else 0) else 0 := by
        rw [List.zip_cons_cons, List.count_cons]
        grind
      have hfirst : first ∈ Finset.univ.erase (0 : UInt8) :=
        Finset.mem_erase.mpr ⟨Ne.symm hzero.1, Finset.mem_univ first⟩
      calc ∑ previous ∈ Finset.univ.erase 0,
            ((first :: second :: rest).zip (second :: rest)).count (previous, opcode) +
              (if (first :: second :: rest).head? = some opcode then 1 else 0)
          = ∑ previous ∈ Finset.univ.erase 0,
              ((second :: rest).zip rest).count (previous, opcode) +
              (if second = opcode then 1 else 0) + (if first = opcode then 1 else 0) := by
            rw [Finset.sum_congr rfl fun previous _ ↦ hpairs previous, Finset.sum_add_distrib,
              Finset.sum_ite_eq, if_pos hfirst]
            simp
        _ = (first :: second :: rest).count opcode := by
            rw [List.count_cons, ← ih hzero.2]
            simp

/-! ### Two meters -/

/-- The fetch with which a turn begins: the opcode that the frame remembers and the one that it now
fetches. -/
def Engine.fetch? (frame : Frame) (state : FrameState) : Option (UInt8 × UInt8) :=
  (fetched? frame state).map (state.1.lastOpcode, ·)

/-- Between two machines each counter has been raised by a number, as far as it goes. -/
def Machine.Counts (before : Machine) (more : UInt8 → UInt8 → Nat) (after : Machine) : Prop :=
  ∀ meter, before.meter = some meter → meter.Capped →
    ∃ later, after.meter = some later ∧ ∀ previous opcode,
      later.pairCount previous opcode =
        min (meter.pairCount previous opcode + more previous opcode) Meter.maxCount

namespace Machine.Counts

variable {before between after : Machine} {more more' : UInt8 → UInt8 → Nat}

theorem of_meter_eq (hmeter : after.meter = before.meter) (hmore : ∀ p o, more p o = 0) :
    before.Counts more after := by
  intro meter hbefore hcapped
  refine ⟨meter, hmeter.trans hbefore, fun previous opcode ↦ ?_⟩
  rw [hmore, Nat.add_zero, Nat.min_eq_left (hcapped previous opcode)]

theorem congr (hcounts : before.Counts more after) (hmore : ∀ p o, more p o = more' p o) :
    before.Counts more' after :=
  (funext fun p ↦ funext (hmore p) : more = more') ▸ hcounts

theorem trans (hfirst : before.Counts more between) (hnext : between.Counts more' after) :
    before.Counts (fun previous opcode ↦ more previous opcode + more' previous opcode) after := by
  intro meter hbefore hcapped
  obtain ⟨middle, hbetween, hmiddle⟩ := hfirst meter hbefore hcapped
  obtain ⟨later, hafter, hlater⟩ := hnext middle hbetween fun previous opcode ↦ by
    rw [hmiddle]
    exact Nat.min_le_right _ _
  refine ⟨later, hafter, fun previous opcode ↦ ?_⟩
  rw [hlater, hmiddle]
  dsimp only
  omega

/-- The fetch of a turn. -/
theorem counted (frame : Frame) (state : FrameState) :
    state.2.Counts
      (fun previous opcode ↦
        (fetch? frame state).toList.countP (Meter.countsUnder previous opcode))
      (Engine.counted frame state) := by
  intro meter hmeter hcapped
  unfold Engine.counted fetch?
  cases fetched? frame state with
  | none =>
    refine ⟨meter, hmeter, fun previous opcode ↦ ?_⟩
    exact (Nat.min_eq_left (hcapped previous opcode)).symm
  | some fetched =>
    refine ⟨meter.record state.1.lastOpcode fetched, by rw [hmeter]; rfl, fun previous opcode ↦ ?_⟩
    have hrecord := meter.pairCount_record (state.1.lastOpcode, fetched) previous opcode
    dsimp only at hrecord ⊢
    rw [hrecord, Option.map_some, Option.toList_some, List.countP_singleton]
    split_ifs
    · rfl
    · exact (Nat.min_eq_left (hcapped previous opcode)).symm

end Machine.Counts

/-! ### Turns of a frame -/

section Turns

variable {caller : Caller} {frame : Frame}

/-- What a frame remembers at each fetch is the opcode that it fetched before. -/
theorem filterMap_fetch? (rounds : Nat) (start : FrameState) :
    (turns caller frame rounds start).filterMap (fetch? frame) =
      (start.1.lastOpcode :: (turns caller frame rounds start).filterMap (fetched? frame)).zip
        ((turns caller frame rounds start).filterMap (fetched? frame)) := by
  induction rounds generalizing start with
  | zero => rfl
  | succ rounds ih =>
    rw [turns]
    cases hnext : next? caller frame start with
    | none => cases hfetched : fetched? frame start <;> simp [fetch?, hfetched]
    | some later =>
      obtain ⟨opcode, -, hfetched, hlast⟩ := fetched?_of_next? hnext
      dsimp only
      rw [List.filterMap_cons_some (by rw [fetch?, hfetched]; rfl),
        List.filterMap_cons_some hfetched, List.zip_cons_cons, ih, hlast]

/-- The byte zero is fetched at most at the end of a frame. -/
theorem zero_not_mem_dropLast_turns (rounds : Nat) (start : FrameState) :
    0 ∉ ((turns caller frame rounds start).filterMap (fetched? frame)).dropLast := by
  induction rounds generalizing start with
  | zero => exact List.not_mem_nil
  | succ rounds ih =>
    rw [turns]
    cases hnext : next? caller frame start with
    | none => cases hfetched : fetched? frame start <;> simp [hfetched]
    | some later =>
      obtain ⟨opcode, hopcode, hfetched, -⟩ := fetched?_of_next? hnext
      dsimp only
      rw [List.filterMap_cons_some hfetched]
      intro hmem
      have hlater := ih later
      generalize (turns caller frame rounds later).filterMap (fetched? frame) = rest at hmem hlater
      cases rest with
      | nil => cases hmem
      | cons next rest =>
        rw [List.dropLast_cons_cons, List.mem_cons] at hmem
        exact hmem.elim (fun hzero ↦ hopcode hzero.symm) hlater

/-- The counters go along with the turns of a frame: each turn has its fetch counted, and then what
happens in it. -/
theorem counts_interpretWithin {notes : FrameState → List Note} (rounds : Nat) (start : FrameState)
    (hturns : ∀ state ∈ turns caller frame rounds start,
      (counted frame state).Counts (tallyAll (notes state))
        (machineAfter (turn caller frame state.1 (counted frame state)))) :
    start.2.Counts
      (fun previous opcode ↦
        ((turns caller frame rounds start).filterMap (fetch? frame)).countP
          (Meter.countsUnder previous opcode) +
        tallyAll ((turns caller frame rounds start).flatMap notes) previous opcode)
      (machineAfter (interpretWithin caller frame rounds start.1 start.2)) := by
  refine interpretWithin_of_turns
    (fun before states after ↦ before.Counts
      (fun previous opcode ↦
        (states.filterMap (fetch? frame)).countP (Meter.countsUnder previous opcode) +
        tallyAll (states.flatMap notes) previous opcode) after)
    (fun _ ↦ .of_meter_eq rfl fun _ _ ↦ rfl) ?_ rounds start ?_
  · intro before between after states others hfirst hnext
    refine (hfirst.trans hnext).congr fun previous opcode ↦ ?_
    rw [List.filterMap_append, List.countP_append, List.flatMap_append, tallyAll_append]
    omega
  · intro state hmem
    refine ((Machine.Counts.counted frame state).trans (hturns state hmem)).congr fun p o ↦ ?_
    rw [List.flatMap_singleton, List.filterMap_eq_flatMap_toList, List.flatMap_singleton]

end Turns

/-! ### Whole runs -/

/-- A run leaves the counters raised by what its journal says. -/
theorem Journals.counts {action : Engine α} {machine : Machine} {notes : List Note}
    (hjournal : Journals action machine notes) :
    machine.Counts (tallyAll notes) (machineAfter (action machine)) := by
  induction hjournal with
  | quiet hquiet => exact .of_meter_eq hquiet.meter_eq fun _ _ ↦ rfl
  | bind_ok hrun _ _ hfirst hnext =>
    rw [hrun] at hfirst
    rw [bind_of_ok hrun]
    exact (hfirst.trans hnext).congr fun previous opcode ↦ (tallyAll_append ..).symm
  | bind_error hrun _ hfirst =>
    rw [hrun] at hfirst
    rw [bind_of_error hrun]
    exact hfirst
  | attempt _ haction => rwa [machineAfter_attempt]
  | compiled hsubject hopen hrun =>
    obtain ⟨-, rfl⟩ := compile_eq_ok hsubject hopen hrun
    rw [hrun]
    exact .of_meter_eq rfl fun _ _ ↦ rfl
  | failed hsubject hrun =>
    obtain ⟨-, -, rfl⟩ := compile_eq_error hsubject hrun
    rw [hrun]
    exact .of_meter_eq rfl fun _ _ ↦ rfl
  | @interpreted caller frame stack machine states notes hstates _ hturns =>
    subst hstates
    have hrun := counts_interpretWithin caller.rounds _ hturns
    refine (Machine.Counts.trans (.of_meter_eq rfl fun _ _ ↦ rfl) hrun).congr fun p o ↦ ?_
    rw [filterMap_fetch?]
    exact Nat.zero_add _

/-- The byte zero is fetched at most at the end of a frame. -/
theorem Journals.zero_not_mem_dropLast {action : Engine α} {machine : Machine} {notes : List Note}
    (hjournal : Journals action machine notes) {note : Note} (hnote : note ∈ notes) :
    0 ∉ note.fetches.dropLast := by
  induction hjournal generalizing note with
  | quiet => cases hnote
  | bind_ok _ _ _ hfirst hnext => exact (List.mem_append.mp hnote).elim hfirst hnext
  | bind_error _ _ hfirst => exact hfirst hnote
  | attempt _ haction => exact haction hnote
  | compiled | failed => rw [List.mem_singleton.mp hnote]; exact List.not_mem_nil
  | interpreted notes hstates _ hturns =>
    subst hstates
    rcases List.mem_cons.mp hnote with rfl | hmem
    · exact zero_not_mem_dropLast_turns _ _
    · obtain ⟨state, hstate, hmem⟩ := List.mem_flatMap.mp hmem
      exact hturns state hstate hmem

/-! ### What the counters say -/

/-- How often an opcode was fetched in all frames. -/
def timesFetched (notes : List Note) (opcode : UInt8) : Nat :=
  (notes.map fun note ↦ note.fetches.count opcode).sum

/-- How often an opcode was fetched right after another one in the same frame. -/
def timesFollowed (notes : List Note) (previous opcode : UInt8) : Nat :=
  (notes.map fun note ↦ (note.fetches.zip note.fetches.tail).count (previous, opcode)).sum

/-- How many frames fetched an opcode first. -/
def framesStarting (notes : List Note) (opcode : UInt8) : Nat :=
  notes.countP fun note ↦ note.fetches.head? = some opcode

/-- No counter holds the largest number that it can hold. -/
def Meter.Unsaturated (meter : Meter) : Prop :=
  ∀ previous opcode, meter.pairCount previous opcode < maxCount

theorem Meter.Unsaturated.of_counts {meter : Meter}
    (hcounts : ∀ entry ∈ meter.counts, entry.2 < maxCount) : meter.Unsaturated := by
  intro previous opcode
  unfold pairCount
  cases hlookup : meter.counts.lookup (previous, opcode) with
  | none => exact Nat.succ_pos _
  | some n =>
    obtain ⟨before, after, hlist, -⟩ := List.lookup_eq_some_iff.mp hlookup
    exact hcounts _ (hlist ▸ List.mem_append_right before List.mem_cons_self)

/-- The counters of a run that begins with a fresh meter. -/
theorem Journals.counters_of_fresh {action : Engine α} {machine : Machine} {notes : List Note}
    (hjournal : Journals action machine notes) (hfresh : machine.meter = some {}) :
    ∃ meter, (machineAfter (action machine)).meter = some meter ∧
      (∀ opcode, meter.count opcode = min (timesFetched notes opcode) Meter.maxCount) ∧
      ∀ previous opcode, previous ≠ 0 →
        meter.pairCount previous opcode =
          min (timesFollowed notes previous opcode) Meter.maxCount := by
  obtain ⟨meter, hmeter, hcounts⟩ := hjournal.counts {} hfresh fun _ _ ↦ Nat.zero_le _
  have hcount (previous opcode : UInt8) :
      meter.pairCount previous opcode = min (tallyAll notes previous opcode) Meter.maxCount :=
    (hcounts previous opcode).trans (congrArg (min · Meter.maxCount) (Nat.zero_add _))
  refine ⟨meter, hmeter, fun opcode ↦ ?_, fun previous opcode hprevious ↦ ?_⟩
  · rw [Meter.count, hcount, tallyAll, timesFetched]
    simp only [tally_zero]
  · rw [hcount, tallyAll, timesFollowed]
    simp only [tally_of_ne hprevious]

/-- Every fetch follows another one or is the first of its frame. -/
theorem Journals.sum_timesFollowed {action : Engine α} {machine : Machine} {notes : List Note}
    (hjournal : Journals action machine notes) (opcode : UInt8) :
    ∑ previous ∈ Finset.univ.erase 0, timesFollowed notes previous opcode +
      framesStarting notes opcode = timesFetched notes opcode := by
  have hzero : ∀ note ∈ notes, 0 ∉ note.fetches.dropLast := fun _ ↦ hjournal.zero_not_mem_dropLast
  clear hjournal
  unfold timesFollowed framesStarting timesFetched
  induction notes with
  | nil => simp
  | cons note notes ih =>
    obtain ⟨hnote, hnotes⟩ := List.forall_mem_cons.mp hzero
    simp only [List.map_cons, List.sum_cons, Finset.sum_add_distrib, List.countP_cons,
      decide_eq_true_eq]
    have hpairs := sum_count_pairs hnote opcode
    have hrest := ih hnotes
    omega

/-- Metering is exact. A run that begins with a fresh meter has a journal, and whatever journal it
has, as long as no counter is saturated in the end,

1. the counter of an opcode says how often it was fetched in all frames;
2. the counter of a pair says how often its second opcode was fetched right after its first in the
   same frame, whatever was called and caught in between;
3. so the pairs that end with an opcode, and the frames that begin with it, make up its counter. -/
theorem Request.meter_counts (request : Request) (watch : Event → Machine → Bool) (steps : Nat)
    {machine : Machine} (hfresh : machine.meter = some {}) :
    let run := request.run (.watched watch steps)
    (∃ notes, Journals run machine notes) ∧
      ∀ notes, Journals run machine notes →
        ∃ meter, (machineAfter (run machine)).meter = some meter ∧
          (meter.Unsaturated →
            (∀ opcode, meter.count opcode = timesFetched notes opcode) ∧
            (∀ previous opcode, previous ≠ 0 →
              meter.pairCount previous opcode = timesFollowed notes previous opcode) ∧
            ∀ opcode, ∑ previous ∈ Finset.univ.erase 0, meter.pairCount previous opcode +
              framesStarting notes opcode = meter.count opcode) := by
  intro run
  refine ⟨request.noted (noted_watched watch steps) machine, fun notes hjournal ↦ ?_⟩
  obtain ⟨meter, hmeter, hfetched, hfollowed⟩ := hjournal.counters_of_fresh hfresh
  refine ⟨meter, hmeter, fun hunsaturated ↦ ?_⟩
  have hcount (opcode : UInt8) : meter.count opcode = timesFetched notes opcode := by
    have hless : meter.count opcode < Meter.maxCount := hunsaturated 0 opcode
    have hmin := hfetched opcode
    omega
  have hpair (previous opcode : UInt8) (hprevious : previous ≠ 0) :
      meter.pairCount previous opcode = timesFollowed notes previous opcode := by
    have hless := hunsaturated previous opcode
    have hmin := hfollowed previous opcode hprevious
    omega
  refine ⟨hcount, hpair, fun opcode ↦ ?_⟩
  have hpairs : ∑ previous ∈ Finset.univ.erase 0, meter.pairCount previous opcode =
      ∑ previous ∈ Finset.univ.erase 0, timesFollowed notes previous opcode :=
    Finset.sum_congr rfl fun previous hmem ↦ hpair previous opcode (Finset.ne_of_mem_erase hmem)
  calc ∑ previous ∈ Finset.univ.erase 0, meter.pairCount previous opcode +
        framesStarting notes opcode
      = ∑ previous ∈ Finset.univ.erase 0, timesFollowed notes previous opcode +
          framesStarting notes opcode := congrArg (· + framesStarting notes opcode) hpairs
    _ = timesFetched notes opcode := hjournal.sum_timesFollowed opcode
    _ = meter.count opcode := (hcount opcode).symm

/-- A frame sets up a catch and calls a function, which throws to it. Where the frame goes on, the
opcode that it fetches counts as the one after its call, whatever the other frame has fetched in
between. -/
theorem Request.meter_counts_resumed :
    let outer : Function :=
      { code := #[0xC0, 0x32, 0x06, 0x00, 0xC1, 0x20, 0x89, 0x87]
        constants := #[.t, .object 1], maxDepth := 2, parameters := .dynamic [] }
    let inner : Function :=
      { code := #[0xC0, 0xC1, 0xC1, 0x22, 0x87], constants := #[.object 0, .t], maxDepth := 3
        parameters := .dynamic [] }
    let machine : Machine :=
      { heap := { objects := #[.primitive 115 "throw", .function 1 "inner"], threshold := 1 }
        settings := {}, functions := #[outer, inner], meter := some {} }
    let run := (Request.invoking 0 []).run (.watched (fun _ _ ↦ true) 14)
    machine.meter = some {} ∧ ∃ notes meter, Journals run machine notes ∧
      (machineAfter (run machine)).meter = some meter ∧ meter.Unsaturated ∧
      timesFetched notes 0xC1 = 3 ∧ timesFollowed notes 0xC1 0xC1 = 1 ∧
      timesFollowed notes 0x20 0x89 = 1 ∧
      ∑ previous ∈ Finset.univ.erase 0, meter.pairCount previous 0xC0 +
        framesStarting notes 0xC0 = 2 := by
  intro outer inner machine run
  have hfresh : machine.meter = some {} := rfl
  obtain ⟨⟨notes, hjournal⟩, hcounts⟩ :=
    Request.meter_counts (.invoking 0 []) (fun _ _ ↦ true) 14 hfresh
  obtain ⟨meter, hmeter, hexact⟩ := hcounts notes hjournal
  have hlast : (machineAfter (run machine)).meter.map Meter.counts =
      some [((0, 0xC0), 2), ((0, 0x32), 1), ((0xC0, 0x32), 1), ((0, 0xC1), 3), ((0x32, 0xC1), 1),
        ((0, 0x20), 1), ((0xC1, 0x20), 1), ((0xC0, 0xC1), 1), ((0xC1, 0xC1), 1), ((0, 0x22), 1),
        ((0xC1, 0x22), 1), ((0, 0x89), 1), ((0x20, 0x89), 1), ((0, 0x87), 1),
        ((0x89, 0x87), 1)] := by decide +kernel
  rw [hmeter] at hlast
  have hcounters : meter = ⟨_⟩ := congrArg Meter.mk (Option.some.inj hlast)
  have hunsaturated : meter.Unsaturated := .of_counts (hcounters ▸ by decide)
  obtain ⟨hfetched, hfollowed, hsum⟩ := hexact hunsaturated
  refine ⟨hfresh, notes, meter, hjournal, hmeter, hunsaturated, ?_, ?_, ?_, ?_⟩
  · rw [← hfetched, hcounters]
    rfl
  · rw [← hfollowed 0xC1 0xC1 (by decide), hcounters]
    rfl
  · rw [← hfollowed 0x20 0x89 (by decide), hcounters]
    rfl
  · rw [hsum, hcounters]
    rfl

end LispMachine
