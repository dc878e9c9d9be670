import LispMachine.Execution.Translation
import LispMachine.Proofs.Instruction.Decoding

/-!
Offsets and places. The linear scan walks from the start of the code to its end, from each
instruction to the one that follows it. The offsets on its way, and the end, are the *boundaries*,
and the place of a boundary is the number of steps that the walk takes to it. So the scan holds at
the place of a boundary what is decoded there (`Boundary.split`), and the boundary that follows has
the next place (`Boundary.place_following`). The native code of a function has the translation of
the instruction at that place (`Function.translate_step`), and a site for each handler that the
function pushes (`Function.translate_site`).
-/

set_option autoImplicit false

namespace LispMachine

namespace Code

/-! ### Boundaries -/

/-- The offset that the scan goes to from an offset within the code. -/
def following (code : Code) (offset : Nat) : Nat :=
  match code.decode offset with
  | .ok (_, next) => next
  | .error _ => offset + 1

theorem following_of_decode {code : Code} {offset next : Nat} {instruction : Instruction}
    (hdecode : code.decode offset = .ok (instruction, next)) : code.following offset = next := by
  unfold following
  rw [hdecode]

theorem following_bounds {code : Code} {offset : Nat} (hoffset : offset < code.size) :
    offset < code.following offset ∧ code.following offset ≤ code.size := by
  unfold following
  cases hdecode : code.decode offset with
  | ok decoded =>
    have hsound := decode_sound hdecode
    exact ⟨hsound.lt_next, hsound.next_le⟩
  | error fault => exact ⟨Nat.lt_succ_self offset, hoffset⟩

theorem scanFrom_succ {code : Code} {offset : Nat} (hoffset : offset < code.size) (steps : Nat) :
    code.scanFrom (steps + 1) offset =
      ⟨offset, code.decode offset⟩ :: code.scanFrom steps (code.following offset) := by
  rw [scanFrom, if_pos hoffset]
  unfold following
  cases code.decode offset <;> rfl

theorem scanFrom_size (code : Code) (steps : Nat) : code.scanFrom steps code.size = [] := by
  cases steps with
  | zero => rfl
  | succ steps => rw [scanFrom, if_neg (Nat.lt_irrefl _)]

/-- The scan comes to an offset after the part `before`, with enough steps left to reach the end of
the code. -/
structure Comes (code : Code) (before : List Scanned) (steps offset : Nat) : Prop where
  scan_eq : code.scan = before ++ code.scanFrom steps offset
  before_lt : ∀ scanned ∈ before, scanned.offset < offset
  le_size : offset ≤ code.size
  size_le : code.size ≤ offset + steps

/-- The scan comes to an offset. -/
def Boundary (code : Code) (offset : Nat) : Prop := ∃ before steps, code.Comes before steps offset

namespace Comes

variable {code : Code} {before : List Scanned} {steps offset : Nat}

theorem start (code : Code) : code.Comes [] code.size 0 where
  scan_eq := rfl
  before_lt := nofun
  le_size := Nat.zero_le _
  size_le := Nat.le_of_eq (Nat.zero_add _).symm

theorem advance (hcomes : code.Comes before (steps + 1) offset) (hoffset : offset < code.size) :
    code.Comes (before ++ [⟨offset, code.decode offset⟩]) steps (code.following offset) := by
  obtain ⟨hforward, hsize⟩ := following_bounds hoffset
  refine ⟨?_, ?_, hsize, by have := hcomes.size_le; omega⟩
  · rw [hcomes.scan_eq, scanFrom_succ hoffset, List.append_assoc, List.singleton_append]
  · intro scanned hscanned
    rcases List.mem_append.mp hscanned with hbefore | hlast
    · exact Nat.lt_trans (hcomes.before_lt scanned hbefore) hforward
    · rw [List.mem_singleton.mp hlast]
      exact hforward

theorem place_eq (hcomes : code.Comes before steps offset) : code.place offset = before.length := by
  have hbefore : offset ∉ before.map Scanned.offset := by
    intro hmem
    obtain ⟨scanned, hscanned, hoffset⟩ := List.mem_map.mp hmem
    exact absurd hoffset (Nat.ne_of_lt (hcomes.before_lt scanned hscanned))
  unfold place
  rw [hcomes.scan_eq, List.map_append, List.idxOf_append_of_notMem hbefore, List.length_map]
  rcases Nat.lt_or_ge offset code.size with hwithin | hend
  · obtain ⟨steps, rfl⟩ : ∃ fewer, steps = fewer + 1 :=
      ⟨steps - 1, by have := hcomes.size_le; omega⟩
    rw [scanFrom_succ hwithin, List.map_cons, List.idxOf_cons_self, Nat.add_zero]
  · rw [Nat.le_antisymm hcomes.le_size hend, scanFrom_size, List.map_nil, List.idxOf_nil,
      Nat.add_zero]

theorem boundary_of_mem (hcomes : code.Comes before steps offset) {scanned : Scanned}
    (hscanned : scanned ∈ code.scanFrom steps offset) : code.Boundary scanned.offset := by
  induction steps generalizing before offset with
  | zero => cases hscanned
  | succ steps ih =>
    rcases Nat.lt_or_ge offset code.size with hwithin | hend
    · rw [scanFrom_succ hwithin] at hscanned
      rcases List.mem_cons.mp hscanned with rfl | hrest
      · exact ⟨before, steps + 1, hcomes⟩
      · exact ih (hcomes.advance hwithin) hrest
    · rw [Nat.le_antisymm hcomes.le_size hend, scanFrom_size] at hscanned
      cases hscanned

theorem boundary_size (hcomes : code.Comes before steps offset) : code.Boundary code.size := by
  induction steps generalizing before offset with
  | zero =>
    have hend : offset = code.size := Nat.le_antisymm hcomes.le_size hcomes.size_le
    exact hend ▸ ⟨before, 0, hcomes⟩
  | succ steps ih =>
    rcases Nat.lt_or_ge offset code.size with hwithin | hend
    · exact ih (hcomes.advance hwithin)
    · exact Nat.le_antisymm hcomes.le_size hend ▸ ⟨before, steps + 1, hcomes⟩

end Comes

theorem boundary_zero (code : Code) : code.Boundary 0 := ⟨[], code.size, .start code⟩

theorem boundary_size (code : Code) : code.Boundary code.size := (Comes.start code).boundary_size

theorem boundary_of_mem_scan {code : Code} {scanned : Scanned} (hscanned : scanned ∈ code.scan) :
    code.Boundary scanned.offset :=
  (Comes.start code).boundary_of_mem hscanned

theorem boundary_of_isBoundary {code : Code} {offset : Nat} (hboundary : code.isBoundary offset) :
    code.Boundary offset := by
  simp only [isBoundary, Bool.or_eq_true, beq_iff_eq, List.any_eq_true] at hboundary
  rcases hboundary with rfl | ⟨scanned, hscanned, rfl⟩
  · exact code.boundary_size
  · exact boundary_of_mem_scan hscanned

namespace Boundary

variable {code : Code} {offset : Nat}

theorem le_size (hboundary : code.Boundary offset) : offset ≤ code.size := by
  obtain ⟨_, _, hcomes⟩ := hboundary
  exact hcomes.le_size

/-- The scan holds at the place of a boundary what is decoded there, and goes on at the offset that
follows. -/
theorem split (hboundary : code.Boundary offset) (hoffset : offset < code.size) :
    ∃ before after, code.scan = before ++ ⟨offset, code.decode offset⟩ :: after ∧
      before.length = code.place offset ∧ code.Boundary (code.following offset) ∧
      code.place (code.following offset) = code.place offset + 1 := by
  obtain ⟨before, steps, hcomes⟩ := hboundary
  obtain ⟨steps, rfl⟩ : ∃ fewer, steps = fewer + 1 :=
    ⟨steps - 1, by have := hcomes.size_le; omega⟩
  have hnext := hcomes.advance hoffset
  refine ⟨before, code.scanFrom steps (code.following offset), ?_, hcomes.place_eq.symm,
    ⟨_, _, hnext⟩, ?_⟩
  · rw [hcomes.scan_eq, scanFrom_succ hoffset]
  · rw [hnext.place_eq, hcomes.place_eq, List.length_append, List.length_singleton]

end Boundary

/-- In code that can be compiled every target that needs a label is a boundary. -/
theorem boundary_of_labelTarget {code : Code} (hlabels : code.misplacedTarget? = none)
    {offset next target : Nat} {instruction : Instruction}
    (hscanned : ⟨offset, .ok (instruction, next)⟩ ∈ code.scan)
    (htarget : code.labelTarget? instruction = some target) : code.Boundary target := by
  have hmem : target ∈ code.labelTargets :=
    List.mem_filterMap.mpr ⟨_, hscanned, htarget⟩
  unfold misplacedTarget? at hlabels
  rw [List.min?_eq_none_iff, List.filter_eq_nil_iff] at hlabels
  have hboundary := hlabels target hmem
  simp only [Bool.not_eq_false, List.contains_iff_mem, List.mem_cons, List.mem_map,
    Bool.not_eq_eq_eq_not, Bool.not_true] at hboundary
  rcases hboundary with rfl | ⟨scanned, hmember, rfl⟩
  · exact code.boundary_size
  · exact boundary_of_mem_scan hmember

theorem place_size (code : Code) : code.place code.size = code.scan.length := by
  obtain ⟨before, steps, hcomes⟩ := code.boundary_size
  rw [hcomes.place_eq, hcomes.scan_eq, scanFrom_size, List.append_nil]

end Code

/-! ### Native code at a place -/

namespace Function

/-- How many handlers are pushed in a part of the scan. -/
def handlersIn (scan : List Scanned) : Nat := (scan.filterMap Scanned.handlerTarget?).length

theorem translateFrom_append (function : Function) (guarded : Bool) (sites : Nat)
    (before after : List Scanned) :
    ∃ steps : List NativeStep, steps.length = before.length ∧
      function.translateFrom guarded sites (before ++ after) =
        steps ++ function.translateFrom guarded (sites + handlersIn before) after := by
  induction before generalizing sites with
  | nil => exact ⟨[], rfl, rfl⟩
  | cons scanned before ih =>
    obtain ⟨steps, hlength, hsteps⟩ := ih (sites + scanned.handlerTarget?.toList.length)
    refine ⟨function.translateScanned guarded sites scanned :: steps, congrArg (· + 1) hlength, ?_⟩
    rw [List.cons_append, translateFrom, hsteps, List.cons_append]
    have hcount : handlersIn (scanned :: before) =
        scanned.handlerTarget?.toList.length + handlersIn before := by
      unfold handlersIn
      cases htarget : scanned.handlerTarget? <;> simp [htarget, Nat.add_comm]
    rw [hcount, Nat.add_assoc]

/-- The step after a part of the scan is the translation of what comes next. -/
theorem translate_step {function : Function} {before after : List Scanned} {scanned : Scanned}
    (hscan : function.code.scan = before ++ scanned :: after) (guarded : Bool) :
    (function.translate guarded).steps[before.length]? =
      some (function.translateScanned guarded (handlersIn before) scanned) := by
  obtain ⟨steps, hlength, hsteps⟩ :=
    function.translateFrom_append guarded 0 before (scanned :: after)
  rw [steps_translate, hscan, hsteps, List.getElem?_toArray, ← hlength,
    List.getElem?_append_right (Nat.le_refl _), Nat.sub_self, Nat.zero_add, translateFrom]
  rfl

/-- Behind the last step stands the trap for running off the end. -/
theorem translate_end (function : Function) (guarded : Bool) :
    (function.translate guarded).steps[function.code.scan.length]? =
      some ⟨none, .trap (.fellOffEnd function.displayName)⟩ := by
  obtain ⟨steps, hlength, hsteps⟩ := function.translateFrom_append guarded 0 function.code.scan []
  rw [List.append_nil] at hsteps
  rw [steps_translate, hsteps, List.getElem?_toArray, ← hlength,
    List.getElem?_append_right (Nat.le_refl _), Nat.sub_self, translateFrom]
  rfl

/-- The site of a handler goes on at the place of the handler's target. -/
theorem translate_site {function : Function} {before after : List Scanned} {scanned : Scanned}
    (hscan : function.code.scan = before ++ scanned :: after) {target : Nat}
    (htarget : scanned.handlerTarget? = some target) (guarded : Bool) :
    (function.translate guarded).sites[handlersIn before]? = some (function.code.place target) := by
  rw [sites_translate, List.getElem?_toArray, List.getElem?_map]
  rw [show function.code.scan.filterMap Scanned.handlerTarget? = _ from
    congrArg _ hscan, List.filterMap_append, List.filterMap_cons_some htarget, handlersIn,
    List.getElem?_append_right (Nat.le_refl _), Nat.sub_self]
  rfl

end Function

end LispMachine
