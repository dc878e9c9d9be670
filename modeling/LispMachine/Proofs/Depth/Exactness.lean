import LispMachine.Proofs.Depth.Running
import Mathlib.Data.Fintype.Card
import Mathlib.Order.Bounds.Basic

/-!
Where the analysis of the depth is exact. It is, for code in which each offset is reached with one
depth only (`Code.maxDepth_exact`): it fails just when some offset that is reached is stuck, and
otherwise gives the greatest depth that is reached, in whatever order the points of its list are
worked off.

The analysis computes depths as numbers of 64 bits, and what it finds is what can be reached in such
numbers (`Code.WordReaches`). Where each offset has one depth only, no depth is greater than that on
entry by more than the length of the code (`Code.le_of_consistent`), so unless these two come to
2 ^ 64 together, that is the same as what the paths come to (`Code.wordReaches_iff_reaches`).
-/

set_option autoImplicit false

namespace LispMachine

/-! ### Paths in numbers of 64 bits -/

/-- Where an instruction can lead, as `Instruction.Leads` has it, but with depths that are numbers
of 64 bits. -/
inductive Instruction.WordLeads (next depth : Nat) : Instruction → Nat → Nat → Prop where
  | on {instruction : Instruction} {after : Nat} (hfalls : instruction.isTerminator = false)
      (hword : after < 0x10000000000000000)
      (hafter : (0x10000000000000000 : Int) ∣ depth + instruction.effect - after) :
      WordLeads next depth instruction next after
  | taken (kind : BranchKind) (form : BranchForm) (target : Nat) :
      WordLeads next depth (.branch kind form target) target
        (if kind.isConditional && !kind.isElsePop then depth - 1 else depth)
  | caught (kind : HandlerKind) (target : Nat) :
      WordLeads next depth (.pushHandler kind target) target depth

/-- Control can get from the first point to the second in one step, in numbers of 64 bits. -/
inductive Code.WordSteps (code : Code) : DepthPoint → DepthPoint → Prop where
  | step {offset depth offset' depth' next : Nat} {instruction : Instruction}
      (hdecode : code.decode offset = .ok (instruction, next))
      (hreach : instruction.reach ≤ depth)
      (hleads : instruction.WordLeads next depth offset' depth') :
      WordSteps code (offset, depth) (offset', depth')

/-- Control can get from the first point to the second, in numbers of 64 bits. -/
abbrev Code.WordReaches (code : Code) : DepthPoint → DepthPoint → Prop :=
  Relation.ReflTransGen code.WordSteps

theorem changedDepth_lt (depth : Nat) (change : Int) :
    changedDepth depth change < 0x10000000000000000 := by
  unfold changedDepth
  omega

theorem dvd_sub_changedDepth (depth : Nat) (change : Int) :
    (0x10000000000000000 : Int) ∣ depth + change - changedDepth depth change := by
  unfold changedDepth
  omega

theorem changedDepth_of_dvd {depth after : Nat} {change : Int}
    (hword : after < 0x10000000000000000)
    (hafter : (0x10000000000000000 : Int) ∣ depth + change - after) :
    changedDepth depth change = after := by
  unfold changedDepth
  omega

/-- The walk goes on from an instruction just to where it leads. -/
theorem Instruction.mem_successors_iff {instruction : Instruction} {next depth offset after : Nat}
    (hword : depth < 0x10000000000000000) (hreach : instruction.reach ≤ depth) :
    (offset, after) ∈ instruction.successors next depth ↔
      instruction.WordLeads next depth offset after := by
  constructor
  · intro hmem
    have hpopped (hpos : 1 ≤ depth) :
        (0x10000000000000000 : Int) ∣ depth + -1 - (depth - 1 : Nat) := by omega
    cases instruction with
    | ret => cases hmem
    | branch kind form target =>
      cases kind with
      | goto =>
        cases List.mem_singleton.mp hmem
        exact .taken .goto form offset
      | _ =>
        rcases List.mem_cons.mp hmem with heq | hmem
        · cases heq
          exact .on rfl (by omega) (hpopped hreach)
        · cases List.mem_singleton.mp hmem
          exact .taken _ form offset
    | pushHandler kind target =>
      rcases List.mem_cons.mp hmem with heq | hmem
      · cases heq
        exact .on rfl (by omega) (hpopped hreach)
      · cases List.mem_singleton.mp hmem
        exact .caught kind offset
    | _ =>
      cases List.mem_singleton.mp hmem
      exact .on rfl (changedDepth_lt _ _) (dvd_sub_changedDepth _ _)
  · intro hleads
    cases hleads with
    | on hfalls hsmall hafter =>
      have hchanged := changedDepth_of_dvd hsmall hafter
      have hpopped (hless : instruction.effect = -1) (hpos : 1 ≤ depth) : after = depth - 1 := by
        rw [hless] at hafter
        omega
      cases instruction with
      | ret => cases hfalls
      | branch kind form target =>
        cases kind with
        | goto => cases hfalls
        | _ => exact hpopped rfl hreach ▸ List.mem_cons_self
      | pushHandler kind target => exact hpopped rfl hreach ▸ List.mem_cons_self
      | _ => exact hchanged ▸ List.mem_cons_self
    | taken kind form =>
      cases kind with
      | goto => exact List.mem_cons_self
      | _ => exact List.mem_cons_of_mem _ List.mem_cons_self
    | caught kind => exact List.mem_cons_of_mem _ List.mem_cons_self

theorem Instruction.WordLeads.lt {instruction : Instruction} {next depth offset after : Nat}
    (hleads : instruction.WordLeads next depth offset after)
    (hword : depth < 0x10000000000000000) : after < 0x10000000000000000 := by
  cases hleads with
  | on _ hsmall _ => exact hsmall
  | taken kind => split_ifs <;> omega
  | caught => exact hword

variable {code : Code} {entry : Nat}

theorem Code.WordReaches.lt {point point' : DepthPoint} (hpath : code.WordReaches point point')
    (hword : point.2 < 0x10000000000000000) : point'.2 < 0x10000000000000000 := by
  induction hpath with
  | refl => exact hword
  | tail _ hstep ih =>
    obtain ⟨-, -, hleads⟩ := hstep
    exact hleads.lt ih

/-- Where no depth on a path comes to 2 ^ 64, the paths in numbers of 64 bits are the paths. -/
theorem Code.wordReaches_iff_reaches
    (hsmall : ∀ point, code.Reaches (0, entry) point → point.2 < 0x10000000000000000)
    (point : DepthPoint) :
    code.WordReaches (0, entry) point ↔ code.Reaches (0, entry) point := by
  constructor
  · intro hpath
    induction hpath with
    | refl => exact .refl
    | @tail between point hpath hstep ih =>
      obtain @⟨offset, depth, offset', after, next, instruction, hdecode, hreach, hleads⟩ := hstep
      cases hleads with
      | on hfalls hword hafter =>
        have htakes := (decode_sound hdecode).small.unsigned.effect_bounds.1
        have htrue : code.Steps (offset, depth) (offset', (depth + instruction.effect).toNat) :=
          .step hdecode hreach (.on hfalls (by omega))
        have hfits := hsmall _ (ih.tail htrue)
        obtain rfl : after = (depth + instruction.effect).toNat := by omega
        exact ih.tail htrue
      | taken kind form => exact ih.tail (.step hdecode hreach (.taken kind form _))
      | caught kind => exact ih.tail (.step hdecode hreach (.caught kind _))
  · intro hpath
    induction hpath with
    | refl => exact .refl
    | @tail between point hpath hstep ih =>
      have hword := hsmall point (hpath.tail hstep)
      obtain @⟨offset, depth, offset', after, next, instruction, hdecode, hreach, hleads⟩ := hstep
      cases hleads with
      | on hfalls hafter =>
        exact ih.tail (.step hdecode hreach (.on hfalls hword (by omega)))
      | taken kind form => exact ih.tail (.step hdecode hreach (.taken kind form _))
      | caught kind => exact ih.tail (.step hdecode hreach (.caught kind _))

/-- Each offset of the code is reached with one depth only. -/
def Code.Consistent (code : Code) (reached : DepthPoint → Prop) : Prop :=
  ∀ offset depth depth', offset < code.size → reached (offset, depth) → reached (offset, depth') →
    depth = depth'

/-- On a path to a point every depth from that on entry up to that of the point is met, at some
offset of the code. -/
theorem Code.exists_offset_of_reaches {point : DepthPoint} (hpath : code.Reaches (0, entry) point)
    {depth : Nat} (hentry : entry ≤ depth) (hdepth : depth < point.2) :
    ∃ offset, offset < code.size ∧ code.Reaches (0, entry) (offset, depth) := by
  induction hpath with
  | refl => exact absurd hdepth (Nat.not_lt.mpr hentry)
  | @tail between point hpath hstep ih =>
    by_cases hbefore : depth < between.2
    · exact ih hbefore
    · have hless := hstep.le_succ
      obtain rfl : depth = between.2 := by omega
      obtain ⟨hdecode, -, -⟩ := hstep
      exact ⟨_, lt_size_of_decode hdecode, hpath⟩

/-- Where each offset of the code is reached with one depth only, the stack gets deeper by no more
values than the code has bytes. -/
theorem Code.le_of_consistent (hconsistent : code.Consistent (code.Reaches (0, entry)))
    {point : DepthPoint} (hpath : code.Reaches (0, entry) point) :
    point.2 ≤ entry + code.size := by
  -- The depths below that of the point are met at different offsets.
  have hmet (rise : Fin (point.2 - entry)) :
      ∃ offset : Fin code.size, code.Reaches (0, entry) (offset.val, entry + rise) := by
    obtain ⟨offset, hinside, hreached⟩ :=
      exists_offset_of_reaches hpath (Nat.le_add_right entry rise) (by omega)
    exact ⟨⟨offset, hinside⟩, hreached⟩
  choose offsets hoffsets using hmet
  have hinjective : Function.Injective offsets := by
    intro rise rise' hsame
    have hdepth := hconsistent _ _ _ (offsets rise).isLt (hoffsets rise) (hsame ▸ hoffsets rise')
    exact Fin.ext (Nat.add_left_cancel hdepth)
  have hcard := Fintype.card_le_of_injective offsets hinjective
  rw [Fintype.card_fin, Fintype.card_fin] at hcard
  omega

/-- Where each offset of the code is reached with one depth only, and a stack that is deeper than on
entry by the length of the code has a depth of 64 bits, the same is reached in such numbers. -/
theorem Code.wordReaches_eq_reaches (hconsistent : code.Consistent (code.Reaches (0, entry)))
    (hroom : entry + code.size < 0x10000000000000000) :
    code.WordReaches (0, entry) = code.Reaches (0, entry) :=
  funext fun point ↦ propext (wordReaches_iff_reaches
    (fun _ hpath ↦ Nat.lt_of_le_of_lt (le_of_consistent hconsistent hpath) hroom) point)

/-! ### What a walk has found -/

/-- All that a walk has met or still has to work off is reached, and so is the deepest depth. -/
structure DepthWalk.Attained (code : Code) (entry : Nat) (work : List DepthPoint)
    (walk : DepthWalk) : Prop where
  work_reached : ∀ point ∈ work, code.WordReaches (0, entry) point
  met_reached : ∀ {offset first : Nat}, walk.met[offset]? = some (some first) →
    code.WordReaches (0, entry) (offset, first)
  deepest_reached : ∃ offset, code.WordReaches (0, entry) (offset, walk.deepest)

namespace DepthWalk

/-- The deepest depth after a visit is the one before, or that of a successor. -/
theorem deepest_visit (walk : DepthWalk) (point : DepthPoint) (successors : List DepthPoint) :
    (walk.visit point successors).deepest = walk.deepest ∨
      ∃ successor ∈ successors, successor.2 = (walk.visit point successors).deepest := by
  obtain ⟨met, deepest⟩ := walk
  dsimp only [visit]
  induction successors generalizing deepest with
  | nil => exact .inl rfl
  | cons successor successors ih =>
    rw [List.foldl_cons]
    obtain hsame | ⟨other, hmem, hother⟩ := ih (deepest.max successor.2)
    · rw [hsame]
      rcases Nat.le_total successor.2 deepest with hless | hless
      · exact .inl (Nat.max_eq_left hless)
      · exact .inr ⟨successor, List.mem_cons_self, (Nat.max_eq_right hless).symm⟩
    · exact .inr ⟨other, List.mem_cons_of_mem _ hmem, hother⟩

theorem Attained.initial (code : Code) (entry : Nat) :
    Attained code entry [(0, entry)] (.start code.size entry) := by
  refine ⟨?_, ?_, 0, .refl⟩
  · intro point hpoint
    rw [List.mem_singleton.mp hpoint]
  · intro offset first hmet
    simp [start, Array.getElem?_replicate] at hmet

/-- A walk that starts with a depth of 64 bits finds nothing but what is reached. -/
theorem Attained.kept (hentry : entry < 0x10000000000000000) :
    code.Kept (Attained code entry) where
  perm hperm hattained :=
    { hattained with work_reached := fun point hpoint ↦
        hattained.work_reached point (hperm.mem_iff.mp hpoint) }
  skip hattained _ :=
    { hattained with work_reached := fun point hpoint ↦
        hattained.work_reached point (List.mem_cons_of_mem _ hpoint) }
  visit {offset depth work walk instruction next} hattained hunmet hdecode hreach := by
    have hpath := hattained.work_reached (offset, depth) List.mem_cons_self
    have hsuccessors : ∀ successor ∈ instruction.successors next depth,
        code.WordReaches (0, entry) successor := fun successor hsuccessor ↦
      hpath.tail (.step hdecode hreach
        ((Instruction.mem_successors_iff (hpath.lt hentry) hreach).mp hsuccessor))
    refine ⟨?_, ?_, ?_⟩
    · intro point hpoint
      rcases List.mem_append.mp hpoint with hmem | hmem
      · exact hsuccessors point hmem
      · exact hattained.work_reached point (List.mem_cons_of_mem _ hmem)
    · intro other first hmet
      rw [visit, Array.getElem?_setIfInBounds] at hmet
      split_ifs at hmet with hsame
      · cases hmet
        exact hsame ▸ hpath
      · exact hattained.met_reached hmet
    · obtain hsame | ⟨successor, hmem, hdeepest⟩ :=
        walk.deepest_visit (offset, depth) (instruction.successors next depth)
      · rw [hsame]
        exact hattained.deepest_reached
      · exact ⟨successor.1, hdeepest ▸ hsuccessors successor hmem⟩

variable {walk : DepthWalk} {point : DepthPoint}

/-- When everything has been worked off and each offset of the code is reached with one depth only,
the walk covers every point that is reached. -/
theorem Sound.covers_of_wordReaches (hsound : walk.Sound code entry [])
    (hattained : walk.Attained code entry []) (hentry : entry < 0x10000000000000000)
    (hconsistent : code.Consistent (code.WordReaches (0, entry)))
    (hpath : code.WordReaches (0, entry) point) : walk.Covers code point := by
  have hseen {point : DepthPoint} (hpath : code.WordReaches (0, entry) point) :
      ¬ walk.Overlooks point := by
    rintro (hlarge | ⟨first, hmet, hother⟩)
    · exact Nat.not_lt.mpr hlarge (hpath.lt hentry)
    · have hinside : point.1 < code.size :=
        hsound.size_eq ▸ (Array.getElem?_eq_some_iff.mp hmet).1
      exact hother (hconsistent _ _ _ hinside (hattained.met_reached hmet) hpath)
  induction hpath with
  | refl => exact hsound.covers_start (hseen .refl)
  | @tail between point hpath hstep ih =>
    have hnext := hseen (hpath.tail hstep)
    obtain @⟨offset, depth, offset', after, next, instruction, hdecode, hreach, hleads⟩ := hstep
    have hsuccessor := (Instruction.mem_successors_iff (Code.WordReaches.lt hpath hentry)
      hreach).mpr hleads
    exact hsound.covers_successor ih hdecode hsuccessor hnext

/-- A point that is covered inside the code is not stuck. -/
theorem Sound.not_stuck (hsound : walk.Sound code entry []) (hcovers : walk.Covers code point)
    (hinside : point.1 < code.size) : ¬ code.Stuck point := by
  obtain ⟨instruction, next, hdecode, hreach, -⟩ := hsound.expanded (hcovers.met_eq hinside)
  rintro (⟨fault, herror⟩ | ⟨instruction', next', hdecode', hshallow⟩)
  · cases hdecode.symm.trans herror
  · cases hdecode.symm.trans hdecode'
    exact Nat.not_lt.mpr hreach hshallow

end DepthWalk

/-! ### The result of the analysis -/

/-- The greatest stack depth, found by a walk that puts its list in the given order in every
round. -/
def Code.maxDepthInOrder (code : Code) (order : Nat → List DepthPoint → List DepthPoint)
    (entry : Nat) : Except Fault Nat :=
  (code.walkInOrder order (2 * code.size + 1) [(0, entry)] (.start code.size entry)).map
    DepthWalk.deepest

/-- The analysis leaves its list as it is. -/
theorem Code.maxDepth_eq_inOrder (code : Code) (entry : Nat) :
    code.maxDepth entry = code.maxDepthInOrder (fun _ work ↦ work) entry := by
  unfold maxDepth maxDepthInOrder walk
  rw [walkInOrder_id]

/-- In whatever order the points are worked off, the analysis fails just when an offset of the code
is reached that cannot be decoded, or with a depth below the reach of its instruction, and otherwise
it gives the greatest depth that is reached. -/
def Code.ExactFor (code : Code) (entry : Nat) (reached : DepthPoint → Prop) : Prop :=
  ∀ order : Nat → List DepthPoint → List DepthPoint,
    (∀ round work, (order round work).Perm work) →
      ((∃ fault, code.maxDepthInOrder order entry = .error fault) ↔
        ∃ point, reached point ∧ point.1 < code.size ∧ code.Stuck point) ∧
      ∀ most, code.maxDepthInOrder order entry = .ok most →
        IsGreatest {depth | ∃ offset, reached (offset, depth)} most

theorem Code.exactFor_wordReaches (hentry : entry < 0x10000000000000000)
    (hconsistent : code.Consistent (code.WordReaches (0, entry))) :
    code.ExactFor entry (code.WordReaches (0, entry)) := by
  intro order horder
  have hends := ((DepthWalk.Sound.kept code entry).and (DepthWalk.Attained.kept hentry)).walkInOrder
    horder (2 * code.size + 1) ⟨.initial code entry, .initial code entry⟩
    (by rw [DepthWalk.unmet_start, List.length_singleton]; omega)
  unfold maxDepthInOrder
  generalize code.walkInOrder order (2 * code.size + 1) [(0, entry)] (.start code.size entry) =
    result at hends ⊢
  cases result with
  | error fault =>
    obtain ⟨point, work, walk, ⟨hsound, hattained⟩, hunmet, hstuck⟩ := hends
    have hinside : point.1 < code.size :=
      hsound.size_eq ▸ (Array.getElem?_eq_some_iff.mp hunmet).1
    have hpath := hattained.work_reached point List.mem_cons_self
    exact ⟨⟨fun _ ↦ ⟨point, hpath, hinside, hstuck⟩, fun _ ↦ ⟨fault, rfl⟩⟩, nofun⟩
  | ok final =>
    obtain ⟨hsound, hattained⟩ := hends
    have hcovers {point : DepthPoint} (hpath : code.WordReaches (0, entry) point) :
        final.Covers code point :=
      hsound.covers_of_wordReaches hattained hentry hconsistent hpath
    constructor
    · refine ⟨nofun, ?_⟩
      rintro ⟨point, hpath, hinside, hstuck⟩
      exact absurd hstuck (hsound.not_stuck (hcovers hpath) hinside)
    · rintro _ ⟨⟩
      exact ⟨hattained.deepest_reached, fun depth ⟨offset, hpath⟩ ↦ (hcovers hpath).le_deepest⟩

/-- Where the paths of the code come to each of its offsets with one depth only, the analysis is
exact for what they come to, in whatever order it works off its points. It takes its depths for
numbers of 64 bits: if the depth on entry is so great that a path might leave these numbers, the
analysis is exact for the paths in such numbers. -/
theorem Code.maxDepth_exact (code : Code) (hentry : entry < 0x10000000000000000) :
    code.maxDepth entry = code.maxDepthInOrder (fun _ work ↦ work) entry ∧
    (entry + code.size < 0x10000000000000000 → code.Consistent (code.Reaches (0, entry)) →
      code.ExactFor entry (code.Reaches (0, entry))) ∧
    (code.Consistent (code.WordReaches (0, entry)) →
      code.ExactFor entry (code.WordReaches (0, entry))) := by
  refine ⟨maxDepth_eq_inOrder code entry, fun hroom hconsistent ↦ ?_, exactFor_wordReaches hentry⟩
  have hsame := wordReaches_eq_reaches hconsistent hroom
  have hexact := exactFor_wordReaches hentry (hsame.symm ▸ hconsistent)
  rwa [hsame] at hexact

/-- The code sets up a catch, and branches with and without the value that it has tested. The last
instruction is reached from the catch, from the branch and from before, each time with one value,
and so is every other offset with one depth. The greatest depth is two, also in numbers of 64 bits.
-/
theorem Code.maxDepth_exact_branching :
    let code : Code := #[0xC0, 0x32, 0x0B, 0x00, 0xC1, 0x85, 0x0B, 0x00, 0xC1, 0x89, 0x42, 0x87]
    code.maxDepth 0 = .ok 2 ∧
      (code.Consistent (code.Reaches (0, 0)) ∧
        IsGreatest {depth | ∃ offset, code.Reaches (0, 0) (offset, depth)} 2) ∧
      code.Consistent (code.WordReaches (0, 0)) ∧
        IsGreatest {depth | ∃ offset, code.WordReaches (0, 0) (offset, depth)} 2 := by
  intro code
  let points : List DepthPoint :=
    [(0, 0), (1, 1), (4, 0), (5, 1), (8, 0), (9, 1), (10, 2), (11, 1)]
  have hclosed : code.Closed points := by decide +kernel
  have honce : ∀ point ∈ points, ∀ point' ∈ points, point.1 = point'.1 → point = point' := by
    decide
  have hconsistent : code.Consistent (code.Reaches (0, 0)) := by
    intro offset depth depth' _ hpath hpath'
    have hmem := hclosed.mem_of_reaches List.mem_cons_self hpath
    have hmem' := hclosed.mem_of_reaches List.mem_cons_self hpath'
    exact congrArg Prod.snd (honce _ hmem _ hmem' rfl)
  have hword : code.Consistent (code.WordReaches (0, 0)) :=
    (Code.wordReaches_eq_reaches hconsistent (by decide)).symm ▸ hconsistent
  have hmax : code.maxDepth 0 = .ok 2 := by decide +kernel
  have hentry : 0 < 0x10000000000000000 := by decide
  obtain ⟨horder, hexact, hexactWord⟩ := code.maxDepth_exact hentry
  rw [horder] at hmax
  refine ⟨horder.trans hmax, ⟨hconsistent, ?_⟩, hword, ?_⟩
  · exact (hexact (by decide) hconsistent (fun _ work ↦ work) fun _ work ↦ .refl work).2 2 hmax
  · exact (hexactWord hword (fun _ work ↦ work) fun _ work ↦ .refl work).2 2 hmax

end LispMachine
