import LispMachine.Variable
import Mathlib.Tactic.SplitIfs

/-!
The cells of the symbol table: what is read from a cell after something was put into one, and to
which cell aliases lead.
-/

set_option autoImplicit false

namespace LispMachine

namespace SymbolTable

variable {table : SymbolTable}

theorem size_setCell (index : Nat) (cell : ValueCell) :
    (table.setCell index cell).size = table.size :=
  Array.size_modify

theorem cell_setCell (index symbol : Nat) (cell : ValueCell) :
    ((table.setCell index cell).get symbol).cell =
      if index = symbol ∧ symbol < table.size then cell else (table.get symbol).cell := by
  unfold get setCell update size
  simp only [Array.getD_eq_getD_getElem?, Array.getElem?_modify]
  by_cases hindex : index = symbol
  · by_cases hsymbol : symbol < table.symbols.size
    · rw [if_pos hindex, if_pos ⟨hindex, hsymbol⟩, Array.getElem?_eq_getElem hsymbol]
      rfl
    · rw [if_pos hindex, if_neg fun hboth ↦ hsymbol hboth.2, Array.getElem?_eq_none_iff.mpr
        (Nat.le_of_not_lt hsymbol)]
      rfl
  · rw [if_neg hindex, if_neg fun hboth ↦ hindex hboth.1]

theorem cell_setCell_self {symbol : Nat} (hsymbol : symbol < table.size) (cell : ValueCell) :
    ((table.setCell symbol cell).get symbol).cell = cell := by
  rw [cell_setCell, if_pos ⟨rfl, hsymbol⟩]

theorem cell_setCell_of_ne {index symbol : Nat} (hindex : index ≠ symbol) (cell : ValueCell) :
    ((table.setCell index cell).get symbol).cell = (table.get symbol).cell := by
  rw [cell_setCell, if_neg fun hboth ↦ hindex hboth.1]

theorem plainValue?_of_plain {index : Nat} {value : Option Value}
    (hcell : (table.get index).cell = .plain value) : table.plainValue? index = value := by
  unfold plainValue?
  rw [hcell]

/-- What was put into a cell last is there. -/
theorem setCell_setCell (index : Nat) (first last : ValueCell) :
    (table.setCell index first).setCell index last = table.setCell index last := by
  unfold setCell update
  congr 1
  apply Array.ext_getElem?
  intro place
  simp only [Array.getElem?_modify]
  split_ifs
  · rw [Option.map_map]
    rfl
  · rfl

/-! ### Following aliases -/

theorem resolveWithin_of_plain {symbol : Nat} {value : Option Value}
    (hcell : (table.get symbol).cell = .plain value) (limit : Nat) :
    table.resolveWithin (limit + 1) symbol = some symbol := by
  unfold resolveWithin
  rw [hcell]

theorem resolveWithin_of_aliasOf {symbol next : Nat}
    (hcell : (table.get symbol).cell = .aliasOf next) (limit : Nat) :
    table.resolveWithin (limit + 1) symbol = table.resolveWithin limit next := by
  rw [resolveWithin, hcell]

/-- The symbol to which aliases lead is none itself. -/
theorem cell_of_resolve? {index target : Nat} (hresolve : table.resolve? index = some target) :
    (table.get target).cell = .plain (table.plainValue? target) := by
  have hplain {limit index : Nat} (hwithin : table.resolveWithin limit index = some target) :
      ∃ value, (table.get target).cell = .plain value := by
    induction limit generalizing index with
    | zero => cases hwithin
    | succ limit ih =>
      cases hcell : (table.get index).cell with
      | plain value =>
        rw [resolveWithin_of_plain hcell] at hwithin
        cases hwithin
        exact ⟨value, hcell⟩
      | aliasOf next =>
        rw [resolveWithin_of_aliasOf hcell] at hwithin
        exact ih hwithin
  obtain ⟨value, hcell⟩ := hplain hresolve
  rw [plainValue?_of_plain hcell, hcell]

/-- Aliases lead to symbols of the table. -/
def Closed (table : SymbolTable) : Prop :=
  ∀ index target, (table.get index).cell = .aliasOf target → target < table.size

theorem Closed.resolveWithin_lt (hclosed : table.Closed) {limit index target : Nat}
    (hindex : index < table.size) (hresolve : table.resolveWithin limit index = some target) :
    target < table.size := by
  induction limit generalizing index with
  | zero => cases hresolve
  | succ limit ih =>
    cases hcell : (table.get index).cell with
    | plain value =>
      rw [resolveWithin_of_plain hcell] at hresolve
      cases hresolve
      exact hindex
    | aliasOf next =>
      rw [resolveWithin_of_aliasOf hcell] at hresolve
      exact ih (hclosed index next hcell) hresolve

theorem resolve?_of_plain {index : Nat} {value : Option Value}
    (hcell : (table.get index).cell = .plain value) : table.resolve? index = some index :=
  resolveWithin_of_plain hcell _

theorem resolve?_of_assignPlain? {index : Nat} {value : Value} {after : SymbolTable}
    (hassigned : table.assignPlain? index value = some after) :
    table.resolve? index = some index := by
  unfold assignPlain? at hassigned
  split at hassigned
  · next name old function properties hsymbol =>
    have hcell : (table.get index).cell = .plain old := by rw [hsymbol]
    exact resolve?_of_plain hcell
  · cases hassigned

end SymbolTable

end LispMachine
