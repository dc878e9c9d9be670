import LispMachine.Depth
import LispMachine.Proofs.Run.Leads
import Mathlib.Logic.Relation

/-!
Paths through code and the depths of the operand stack along them. A path starts at offset 0 with
the depth on entry, and each step goes where the instruction leads. The analysis of the depth walks
the code and expands every offset once, with the depth with which it is first met. `Sound` is what
the walk keeps: all that the expanded instructions lead to has been expanded, lies beyond the code or
is still to be worked off, and no depth in all this is greater than the deepest one found.

So the result of the analysis holds along every path that comes to each offset with the depth that
the walk met there. A path that comes with another depth has been overlooked, and nothing is known
of how it goes on. `Code.bounded_iff` says that this is the only gap: the result holds along all
paths exactly when it holds along those that go through a point which the walk overlooked.

What is kept in every round of a walk is stated for walks that take the points of the list in any
order (`Code.Kept.walkInOrder`).
-/

set_option autoImplicit false

namespace LispMachine

/-! ### Paths -/

namespace Code

/-- Control can get from the first point to the second in one step. -/
inductive Steps (code : Code) : DepthPoint → DepthPoint → Prop where
  | step {offset depth offset' depth' next : Nat} {instruction : Instruction}
      (hdecode : code.decode offset = .ok (instruction, next))
      (hreach : instruction.reach ≤ depth)
      (hleads : instruction.Leads next depth offset' depth') :
      Steps code (offset, depth) (offset', depth')

/-- Control can get from the first point to the second. -/
abbrev Reaches (code : Code) : DepthPoint → DepthPoint → Prop := Relation.ReflTransGen code.Steps

/-- The depth is at most `most`, and the instruction at the offset, if there is one, reaches no
deeper than the stack is. -/
structure Within (code : Code) (most : Nat) (point : DepthPoint) : Prop where
  le_most : point.2 ≤ most
  reach_le : ∀ {instruction next}, code.decode point.1 = .ok (instruction, next) →
    instruction.reach ≤ point.2

/-- Along every path from the start the depth stays within `most`, and no instruction is met with a
depth below its reach. -/
def Bounded (code : Code) (entry most : Nat) : Prop :=
  ∀ point, code.Reaches (0, entry) point → code.Within most point

end Code

/-! ### The walk -/

theorem DepthWalk.le_deepest_visit (walk : DepthWalk) (point : DepthPoint)
    (successors : List DepthPoint) :
    walk.deepest ≤ (walk.visit point successors).deepest ∧
      ∀ successor ∈ successors, successor.2 ≤ (walk.visit point successors).deepest := by
  obtain ⟨met, deepest⟩ := walk
  dsimp only [visit]
  induction successors generalizing deepest with
  | nil => exact ⟨Nat.le_refl _, nofun⟩
  | cons successor successors ih =>
    obtain ⟨hless, hall⟩ := ih (deepest.max successor.2)
    refine ⟨Nat.le_trans (Nat.le_max_left _ _) hless, fun other hother ↦ ?_⟩
    rcases List.mem_cons.mp hother with rfl | hmem
    · exact Nat.le_trans (Nat.le_max_right _ _) hless
    · exact hall other hmem

namespace DepthWalk

/-- The offset has been met, lies beyond the code or is still to be worked off. -/
def Accounts (walk : DepthWalk) (work : List DepthPoint) (offset : Nat) : Prop :=
  walk.met[offset]? ≠ some none ∨ ∃ depth, (offset, depth) ∈ work

/-- What is kept while a list of points is worked off. -/
structure Sound (code : Code) (entry : Nat) (work : List DepthPoint) (walk : DepthWalk) :
    Prop where
  size_eq : walk.met.size = code.size
  entry_le : entry ≤ walk.deepest
  start : walk.Accounts work 0
  work_le : ∀ point ∈ work, point.2 ≤ walk.deepest
  met_le : ∀ {offset first : Nat}, walk.met[offset]? = some (some first) → first ≤ walk.deepest
  expanded : ∀ {offset first : Nat}, walk.met[offset]? = some (some first) →
    ∃ instruction next, code.decode offset = .ok (instruction, next) ∧
      instruction.reach ≤ first ∧
      ∀ successor ∈ instruction.successors next first,
        successor.2 ≤ walk.deepest ∧ walk.Accounts work successor.1

variable {code : Code} {entry offset depth : Nat} {work : List DepthPoint} {walk : DepthWalk}

theorem Sound.initial (code : Code) (entry : Nat) :
    Sound code entry [(0, entry)] (.start code.size entry) := by
  have hunmet {offset first : Nat} :
      (DepthWalk.start code.size entry).met[offset]? ≠ some (some first) := by
    simp [DepthWalk.start, Array.getElem?_replicate]
  refine ⟨Array.size_replicate, Nat.le_refl _, .inr ⟨entry, List.mem_cons_self⟩, ?_, ?_, ?_⟩
  · intro point hpoint
    rw [List.mem_singleton.mp hpoint]
    exact Nat.le_refl entry
  · exact fun hmet ↦ absurd hmet hunmet
  · exact fun hmet ↦ absurd hmet hunmet

/-- An offset that has been met or lies beyond the code can be left out. -/
theorem Sound.skip (hsound : Sound code entry ((offset, depth) :: work) walk)
    (hmet : walk.met[offset]? ≠ some none) : Sound code entry work walk := by
  have haccounts {other : Nat} (haccounted : walk.Accounts ((offset, depth) :: work) other) :
      walk.Accounts work other := by
    obtain hother | ⟨depth', hmem⟩ := haccounted
    · exact .inl hother
    · rcases List.mem_cons.mp hmem with heq | hmem
      · cases heq
        exact .inl hmet
      · exact .inr ⟨depth', hmem⟩
  refine { hsound with start := haccounts hsound.start, work_le := ?_, expanded := ?_ }
  · exact fun point hpoint ↦ hsound.work_le point (List.mem_cons_of_mem _ hpoint)
  · intro other first hother
    obtain ⟨instruction, next, hdecode, hreach, hsuccessors⟩ := hsound.expanded hother
    refine ⟨instruction, next, hdecode, hreach, fun successor hsuccessor ↦ ?_⟩
    obtain ⟨hless, haccounted⟩ := hsuccessors successor hsuccessor
    exact ⟨hless, haccounts haccounted⟩

/-- An offset that has not been met is expanded with the depth at which it is met now. -/
theorem Sound.visit (hsound : Sound code entry ((offset, depth) :: work) walk)
    (hunmet : walk.met[offset]? = some none) {instruction : Instruction} {next : Nat}
    (hdecode : code.decode offset = .ok (instruction, next)) (hreach : instruction.reach ≤ depth) :
    Sound code entry (instruction.successors next depth ++ work)
      (walk.visit (offset, depth) (instruction.successors next depth)) := by
  obtain ⟨hmore, hsuccessors⟩ :=
    walk.le_deepest_visit (offset, depth) (instruction.successors next depth)
  have hoffset : offset < walk.met.size := (Array.getElem?_eq_some_iff.mp hunmet).1
  have hmet (other : Nat) : (walk.visit (offset, depth) (instruction.successors next depth)).met[other]? =
      if offset = other then some (some depth) else walk.met[other]? := by
    simp only [DepthWalk.visit, Array.getElem?_setIfInBounds, hoffset, if_true]
  have haccounts {other : Nat} (haccounted : walk.Accounts ((offset, depth) :: work) other) :
      (walk.visit (offset, depth) (instruction.successors next depth)).Accounts
        (instruction.successors next depth ++ work) other := by
    unfold Accounts
    rw [hmet]
    split_ifs with hsame
    · exact .inl nofun
    · refine haccounted.imp_right fun ⟨depth', hmem⟩ ↦ ⟨depth', List.mem_append_right _ ?_⟩
      rcases List.mem_cons.mp hmem with heq | hmem
      · cases heq
        exact absurd rfl hsame
      · exact hmem
  refine ⟨?_, Nat.le_trans hsound.entry_le hmore, haccounts hsound.start, ?_, ?_, ?_⟩
  · rw [DepthWalk.visit, Array.size_setIfInBounds, hsound.size_eq]
  · intro point hpoint
    rcases List.mem_append.mp hpoint with hmem | hmem
    · exact hsuccessors point hmem
    · exact Nat.le_trans (hsound.work_le point (List.mem_cons_of_mem _ hmem)) hmore
  · intro other first hother
    rw [hmet] at hother
    split_ifs at hother with hsame
    · cases hother
      exact Nat.le_trans (hsound.work_le _ List.mem_cons_self) hmore
    · exact Nat.le_trans (hsound.met_le hother) hmore
  · intro other first hother
    rw [hmet] at hother
    split_ifs at hother with hsame
    · cases hother
      subst hsame
      refine ⟨instruction, next, hdecode, hreach, fun successor hsuccessor ↦ ?_⟩
      exact ⟨hsuccessors successor hsuccessor,
        .inr ⟨successor.2, List.mem_append_left _ hsuccessor⟩⟩
    · obtain ⟨instruction', next', hdecode', hreach', hled⟩ := hsound.expanded hother
      refine ⟨instruction', next', hdecode', hreach', fun successor hsuccessor ↦ ?_⟩
      obtain ⟨hless, haccounted⟩ := hled successor hsuccessor
      exact ⟨Nat.le_trans hless hmore, haccounts haccounted⟩

/-- How many offsets of the code have not been met. -/
def unmet (walk : DepthWalk) : Nat := walk.met.count none

theorem unmet_visit (hunmet : walk.met[offset]? = some none) (depth : Nat)
    (successors : List DepthPoint) :
    (walk.visit (offset, depth) successors).unmet + 1 = walk.unmet := by
  obtain ⟨hoffset, hnone⟩ := Array.getElem?_eq_some_iff.mp hunmet
  have hpos : 0 < walk.met.count none := Array.count_pos_iff.mpr (hnone ▸ Array.getElem_mem hoffset)
  unfold unmet DepthWalk.visit
  rw [Array.setIfInBounds_def, dif_pos hoffset, Array.count_set]
  simp [hnone]
  omega

end DepthWalk

theorem Instruction.length_successors_le (instruction : Instruction) (next depth : Nat) :
    (instruction.successors next depth).length ≤ 2 := by
  unfold Instruction.successors
  split <;> simp

/-- Work off a list of points as `Code.walkFrom` does, but put the list in the order that is given for
each round before its first point is taken. -/
def Code.walkInOrder (code : Code) (order : Nat → List DepthPoint → List DepthPoint) :
    Nat → List DepthPoint → DepthWalk → Except Fault DepthWalk
  | 0, _, walk => .ok walk
  | rounds + 1, work, walk =>
    match order rounds work with
    | [] => .ok walk
    | (offset, depth) :: work =>
      match walk.met[offset]? with
      | none | some (some _) => code.walkInOrder order rounds work walk
      | some none =>
        match code.decode offset with
        | .error fault => .error fault
        | .ok (instruction, next) =>
          if depth < instruction.reach then .error (.stackUnderflow depth instruction.reach)
          else
            let successors := instruction.successors next depth
            code.walkInOrder order rounds (successors ++ work)
              (walk.visit (offset, depth) successors)

theorem Code.walkInOrder_id (code : Code) (rounds : Nat) (work : List DepthPoint)
    (walk : DepthWalk) :
    code.walkInOrder (fun _ work ↦ work) rounds work walk = code.walkFrom rounds work walk := by
  induction rounds generalizing work walk with
  | zero => rfl
  | succ rounds ih =>
    cases work with
    | nil => rfl
    | cons point work =>
      have hlater : code.walkInOrder (fun _ work ↦ work) rounds = code.walkFrom rounds :=
        funext fun work ↦ funext fun walk ↦ ih work walk
      unfold walkInOrder
      rw [hlater]
      rfl

/-- There is no instruction at the offset, or it needs more values than there are. -/
def Code.Stuck (code : Code) (point : DepthPoint) : Prop :=
  (∃ fault, code.decode point.1 = .error fault) ∨
    ∃ instruction next, code.decode point.1 = .ok (instruction, next) ∧
      point.2 < instruction.reach

/-- What a walk keeps in every round, in whatever order it works off its list. -/
structure Code.Kept (code : Code) (holds : List DepthPoint → DepthWalk → Prop) : Prop where
  perm : ∀ {work work' walk}, work'.Perm work → holds work walk → holds work' walk
  skip : ∀ {offset depth work walk}, holds ((offset, depth) :: work) walk →
    walk.met[offset]? ≠ some none → holds work walk
  visit : ∀ {offset depth work walk instruction next}, holds ((offset, depth) :: work) walk →
    walk.met[offset]? = some none → code.decode offset = .ok (instruction, next) →
    instruction.reach ≤ depth →
      holds (instruction.successors next depth ++ work)
        (walk.visit (offset, depth) (instruction.successors next depth))

theorem Code.Kept.and {code : Code} {holds holds' : List DepthPoint → DepthWalk → Prop}
    (hfirst : code.Kept holds) (hsecond : code.Kept holds') :
    code.Kept fun work walk ↦ holds work walk ∧ holds' work walk where
  perm hperm hboth := ⟨hfirst.perm hperm hboth.1, hsecond.perm hperm hboth.2⟩
  skip hboth hmet := ⟨hfirst.skip hboth.1 hmet, hsecond.skip hboth.2 hmet⟩
  visit hboth hunmet hdecode hreach :=
    ⟨hfirst.visit hboth.1 hunmet hdecode hreach, hsecond.visit hboth.2 hunmet hdecode hreach⟩

/-- How a walk ends that keeps something: with the list worked off, or at a point of the list that
has not been met and is stuck. -/
def DepthWalk.EndsKeeping (code : Code) (holds : List DepthPoint → DepthWalk → Prop) :
    Except Fault DepthWalk → Prop
  | .ok final => holds [] final
  | .error _ => ∃ point work walk, holds (point :: work) walk ∧ walk.met[point.1]? = some none ∧
      code.Stuck point

/-- Each round takes one point off the list or expands one offset, so the rounds are enough to work
everything off. -/
theorem Code.Kept.walkInOrder {code : Code} {holds : List DepthPoint → DepthWalk → Prop}
    (hkept : code.Kept holds) {order : Nat → List DepthPoint → List DepthPoint}
    (horder : ∀ round work, (order round work).Perm work) (rounds : Nat) {work : List DepthPoint}
    {walk : DepthWalk} (hholds : holds work walk)
    (hrounds : work.length + 2 * walk.unmet ≤ rounds) :
    DepthWalk.EndsKeeping code holds (code.walkInOrder order rounds work walk) := by
  induction rounds generalizing work walk with
  | zero => rwa [List.eq_nil_of_length_eq_zero (show work.length = 0 by omega)] at hholds
  | succ rounds ih =>
    have hordered := hkept.perm (horder rounds work) hholds
    have hlength := (horder rounds work).length_eq
    unfold Code.walkInOrder
    generalize order rounds work = ordered at hordered hlength ⊢
    cases ordered with
    | nil => exact hordered
    | cons point rest =>
      obtain ⟨offset, depth⟩ := point
      rw [List.length_cons] at hlength
      dsimp only
      split
      · next hbeyond => exact ih (hkept.skip hordered (by rw [hbeyond]; nofun)) (by omega)
      · next hmet => exact ih (hkept.skip hordered (by rw [hmet]; nofun)) (by omega)
      · next hunmet =>
        split
        · next fault hdecode => exact ⟨_, _, _, hordered, hunmet, .inl ⟨fault, hdecode⟩⟩
        · next instruction next hdecode =>
          split_ifs with hshallow
          · exact ⟨_, _, _, hordered, hunmet, .inr ⟨instruction, next, hdecode, hshallow⟩⟩
          · refine ih (hkept.visit hordered hunmet hdecode (Nat.le_of_not_lt hshallow)) ?_
            have hless := DepthWalk.unmet_visit hunmet depth (instruction.successors next depth)
            have hfew := instruction.length_successors_le next depth
            rw [List.length_append]
            omega

theorem DepthWalk.unmet_start (size entry : Nat) : (DepthWalk.start size entry).unmet = size := by
  simp [unmet, start]

/-- The order of the list does not matter for what is kept. -/
theorem DepthWalk.Sound.perm {code : Code} {entry : Nat} {work work' : List DepthPoint}
    {walk : DepthWalk} (hperm : work'.Perm work) (hsound : walk.Sound code entry work) :
    walk.Sound code entry work' := by
  have haccounts {offset : Nat} (haccounted : walk.Accounts work offset) :
      walk.Accounts work' offset :=
    haccounted.imp_right fun ⟨depth, hmem⟩ ↦ ⟨depth, hperm.mem_iff.mpr hmem⟩
  refine { hsound with start := haccounts hsound.start, work_le := ?_, expanded := ?_ }
  · exact fun point hpoint ↦ hsound.work_le point (hperm.mem_iff.mp hpoint)
  · intro offset first hmet
    obtain ⟨instruction, next, hdecode, hreach, hsuccessors⟩ := hsound.expanded hmet
    refine ⟨instruction, next, hdecode, hreach, fun successor hsuccessor ↦ ?_⟩
    obtain ⟨hless, haccounted⟩ := hsuccessors successor hsuccessor
    exact ⟨hless, haccounts haccounted⟩

theorem DepthWalk.Sound.kept (code : Code) (entry : Nat) :
    code.Kept fun work walk ↦ walk.Sound code entry work :=
  ⟨Sound.perm, Sound.skip, fun hsound hunmet hdecode hreach ↦ hsound.visit hunmet hdecode hreach⟩

theorem Code.walk_sound {code : Code} {entry : Nat} {walk : DepthWalk}
    (hwalk : code.walk entry = .ok walk) : walk.Sound code entry [] := by
  have hends := (DepthWalk.Sound.kept code entry).walkInOrder (fun _ work ↦ .refl work)
    (2 * code.size + 1) (.initial code entry)
    (by rw [DepthWalk.unmet_start, List.length_singleton]; omega)
  rw [walkInOrder_id] at hends
  unfold Code.walk at hwalk
  rw [hwalk] at hends
  exact hends

/-! ### What the walk says of paths -/

theorem changedDepth_of_eq {depth after : Nat} {change : Int} (hafter : (after : Int) = depth + change)
    (hsmall : after < 0x10000000000000000) : changedDepth depth change = after := by
  unfold changedDepth
  rw [← hafter]
  omega

/-- The walk follows an instruction to wherever it leads. -/
theorem Instruction.Leads.mem_successors {instruction : Instruction} {next depth offset after : Nat}
    (hleads : instruction.Leads next depth offset after) (hreach : instruction.reach ≤ depth)
    (hsmall : after < 0x10000000000000000) :
    (offset, after) ∈ instruction.successors next depth := by
  cases hleads with
  | on hfalls hafter =>
    have hchanged := changedDepth_of_eq hafter hsmall
    have hpopped (hless : instruction.effect = -1) : after = depth - 1 := by omega
    cases instruction with
    | ret => cases hfalls
    | branch kind form target =>
      cases kind with
      | goto => cases hfalls
      | _ => exact hpopped rfl ▸ List.mem_cons_self
    | pushHandler kind target => exact hpopped rfl ▸ List.mem_cons_self
    | _ => exact hchanged ▸ List.mem_cons_self
  | taken kind form target =>
    cases kind with
    | goto => exact List.mem_cons_self
    | _ => exact List.mem_cons_of_mem _ List.mem_cons_self
  | caught kind target => exact List.mem_cons_of_mem _ List.mem_cons_self

/-- What an instruction takes off the stack it reaches, and it adds at most one value. -/
theorem Instruction.Unsigned.effect_bounds {instruction : Instruction}
    (hunsigned : instruction.Unsigned) :
    -instruction.effect ≤ instruction.reach ∧ instruction.effect ≤ 1 := by
  cases instruction with
  | call n | listN n | concatN n | insertN n | discardN n =>
    have hsigned : Instruction.signed n = n := hunsigned
    simp only [effect, reach, hsigned]
    omega
  | branch kind =>
    simp only [effect, reach]
    split_ifs <;> decide
  | operation op =>
    have heffect : (Instruction.operation op).effect =
        (if op.pushes then 1 else 0) - (op.operands : Int) := rfl
    have hreach : (Instruction.operation op).reach = op.operands := rfl
    rw [heffect, hreach]
    split_ifs <;> omega
  | _ =>
    simp only [effect, reach]
    omega

/-- A step makes the stack deeper by at most one value. -/
theorem Code.Steps.le_succ {code : Code} {point point' : DepthPoint}
    (hstep : code.Steps point point') : point'.2 ≤ point.2 + 1 := by
  obtain @⟨offset, depth, offset', after, next, instruction, hdecode, -, hleads⟩ := hstep
  cases hleads with
  | on _ hafter =>
    have hadds := (decode_sound hdecode).small.unsigned.effect_bounds.2
    dsimp only
    omega
  | taken kind =>
    dsimp only
    split_ifs <;> omega
  | caught => exact Nat.le_succ _

/-- Points that no step leaves: wherever the instruction at one of them leads, that is one of them
too. They can be checked one by one. -/
def Code.Closed (code : Code) (points : List DepthPoint) : Prop :=
  ∀ point ∈ points, point.2 + 1 < 0x10000000000000000 ∧
    ∀ found ∈ (code.decode point.1).toOption,
      ∀ successor ∈ found.1.successors found.2 point.2, successor ∈ points

instance (code : Code) (points : List DepthPoint) : Decidable (code.Closed points) :=
  inferInstanceAs (Decidable (∀ point ∈ points, _ ∧ ∀ found ∈ (code.decode point.1).toOption, _))

/-- A path that starts at one of these points does not leave them. -/
theorem Code.Closed.mem_of_reaches {code : Code} {points : List DepthPoint}
    {point point' : DepthPoint} (hclosed : code.Closed points) (hstart : point ∈ points)
    (hpath : code.Reaches point point') : point' ∈ points := by
  induction hpath with
  | refl => exact hstart
  | tail _ hstep ih =>
    have hmore := hstep.le_succ
    obtain @⟨offset, depth, offset', after, next, instruction, hdecode, hreach, hleads⟩ := hstep
    obtain ⟨hsmall, hsuccessors⟩ := hclosed _ ih
    have hfound : (instruction, next) ∈ (code.decode offset).toOption := hdecode ▸ rfl
    exact hsuccessors _ hfound _
      (hleads.mem_successors hreach (Nat.lt_of_le_of_lt hmore hsmall))

/-- The walk did not meet the offset with this depth: another depth came first, or the depth is not a
number of 64 bits. -/
def DepthWalk.Overlooks (walk : DepthWalk) (point : DepthPoint) : Prop :=
  0x10000000000000000 ≤ point.2 ∨
    ∃ first, walk.met[point.1]? = some (some first) ∧ first ≠ point.2

/-- The analysis of the code overlooked the point. -/
def Code.Overlooks (code : Code) (entry : Nat) (point : DepthPoint) : Prop :=
  ∃ walk, code.walk entry = .ok walk ∧ walk.Overlooks point

theorem Code.lt_size_of_decode {code : Code} {offset next : Nat} {instruction : Instruction}
    (hdecode : code.decode offset = .ok (instruction, next)) : offset < code.size :=
  Nat.lt_of_lt_of_le (decode_sound hdecode).lt_next (decode_sound hdecode).next_le

namespace DepthWalk

/-- The depth is not greater than the deepest one, and inside the code it is the one with which the
offset was met. -/
structure Covers (code : Code) (walk : DepthWalk) (point : DepthPoint) : Prop where
  le_deepest : point.2 ≤ walk.deepest
  met_eq : point.1 < code.size → walk.met[point.1]? = some (some point.2)

variable {code : Code} {entry : Nat} {walk : DepthWalk} {point : DepthPoint}

/-- When everything has been worked off, a point at an offset that is accounted for is covered unless
it was overlooked. -/
theorem Sound.covers (hsound : walk.Sound code entry []) (hless : point.2 ≤ walk.deepest)
    (haccounted : walk.Accounts [] point.1) (hseen : ¬ walk.Overlooks point) :
    walk.Covers code point := by
  refine ⟨hless, fun hinside ↦ ?_⟩
  have hoffset : point.1 < walk.met.size := hsound.size_eq ▸ hinside
  obtain hmet | ⟨_, hnever⟩ := haccounted
  · cases hfirst : walk.met[point.1]? with
    | none => exact absurd (Array.getElem?_eq_none_iff.mp hfirst) (Nat.not_le.mpr hoffset)
    | some first =>
      cases first with
      | none => exact absurd hfirst hmet
      | some first =>
        by_cases hsame : first = point.2
        · rw [hsame]
        · exact absurd (.inr ⟨first, hfirst, hsame⟩) hseen
  · cases hnever

theorem Sound.covers_start (hsound : walk.Sound code entry [])
    (hseen : ¬ walk.Overlooks (0, entry)) : walk.Covers code (0, entry) :=
  hsound.covers hsound.entry_le hsound.start hseen

theorem Sound.covers_successor (hsound : walk.Sound code entry []) {offset depth next : Nat}
    {instruction : Instruction} (hcovers : walk.Covers code (offset, depth))
    (hdecode : code.decode offset = .ok (instruction, next)) {successor : DepthPoint}
    (hsuccessor : successor ∈ instruction.successors next depth)
    (hseen : ¬ walk.Overlooks successor) : walk.Covers code successor := by
  obtain ⟨instruction', next', hdecode', -, hsuccessors⟩ :=
    hsound.expanded (hcovers.met_eq (Code.lt_size_of_decode hdecode))
  cases hdecode.symm.trans hdecode'
  obtain ⟨hless, haccounted⟩ := hsuccessors _ hsuccessor
  exact hsound.covers hless haccounted hseen

theorem Sound.covers_step (hsound : walk.Sound code entry []) {point' : DepthPoint}
    (hcovers : walk.Covers code point) (hstep : code.Steps point point')
    (hseen : ¬ walk.Overlooks point') : walk.Covers code point' := by
  obtain @⟨offset, depth, offset', after, next, instruction, hdecode, hreach, hleads⟩ := hstep
  have hsmall : after < 0x10000000000000000 := Nat.lt_of_not_le fun hlarge ↦ hseen (.inl hlarge)
  exact hsound.covers_successor hcovers hdecode (hleads.mem_successors hreach hsmall) hseen

theorem Sound.within (hsound : walk.Sound code entry []) (hcovers : walk.Covers code point) :
    code.Within walk.deepest point := by
  refine ⟨hcovers.le_deepest, fun hdecode ↦ ?_⟩
  obtain ⟨instruction, next, hdecode', hreach, -⟩ :=
    hsound.expanded (hcovers.met_eq (Code.lt_size_of_decode hdecode))
  cases hdecode.symm.trans hdecode'
  exact hreach

/-- Along a path from the start either the walk covers every point or it overlooked one. -/
theorem Sound.covers_or_overlooks (hsound : walk.Sound code entry [])
    (hpath : code.Reaches (0, entry) point) :
    walk.Covers code point ∨ ∃ overlooked, code.Reaches (0, entry) overlooked ∧
      walk.Overlooks overlooked ∧ code.Reaches overlooked point := by
  induction hpath with
  | refl =>
    by_cases hseen : walk.Overlooks (0, entry)
    · exact .inr ⟨_, .refl, hseen, .refl⟩
    · exact .inl (hsound.covers_start hseen)
  | @tail between point hpath hstep ih =>
    obtain hcovers | ⟨overlooked, hbefore, hoverlooked, hafter⟩ := ih
    · by_cases hseen : walk.Overlooks point
      · exact .inr ⟨point, hpath.tail hstep, hseen, .refl⟩
      · exact .inl (hsound.covers_step hcovers hstep hseen)
    · exact .inr ⟨overlooked, hbefore, hoverlooked, hafter.tail hstep⟩

end DepthWalk

theorem Code.maxDepth_eq_ok {code : Code} {entry most : Nat} (hmax : code.maxDepth entry = .ok most) :
    ∃ walk, code.walk entry = .ok walk ∧ walk.deepest = most := by
  unfold maxDepth at hmax
  cases hwalk : code.walk entry with
  | error fault =>
    rw [hwalk] at hmax
    cases hmax
  | ok walk =>
    rw [hwalk] at hmax
    cases hmax
    exact ⟨walk, rfl, rfl⟩

/-- The depth that the analysis gives holds along all paths exactly when it holds along those that go
through a point which the analysis overlooked. -/
theorem Code.bounded_iff {code : Code} {entry most : Nat} (hmax : code.maxDepth entry = .ok most) :
    code.Bounded entry most ↔
      ∀ overlooked point, code.Reaches (0, entry) overlooked → code.Overlooks entry overlooked →
        code.Reaches overlooked point → code.Within most point := by
  obtain ⟨walk, hwalk, rfl⟩ := maxDepth_eq_ok hmax
  have hsound := walk_sound hwalk
  constructor
  · intro hbounded overlooked point hbefore _ hafter
    exact hbounded point (hbefore.trans hafter)
  · intro hoverlooked point hpath
    obtain hcovers | ⟨overlooked, hbefore, hmissed, hafter⟩ := hsound.covers_or_overlooks hpath
    · exact hsound.within hcovers
    · exact hoverlooked overlooked point hbefore ⟨walk, hwalk, hmissed⟩ hafter

end LispMachine
