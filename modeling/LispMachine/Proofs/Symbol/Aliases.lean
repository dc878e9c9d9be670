import LispMachine.Primitive.Data
import LispMachine.Proofs.Store.Applied
import LispMachine.Proofs.Store.Growth

/-!
Making aliases. Following the aliases of a symbol is bounded by a number of cells, so a chain that
runs in a circle and one that is too long look the same: no symbol is found. What is found does not
depend on the bound (`resolveWithin_mono`), and following is not disturbed by a change of a cell
that is not met (`resolveWithin_of_not_leadsTo`), while a symbol that is made an alias of one that
leads to it is never left again (`resolveWithin_of_circle`). So an alias is refused exactly if the
other symbol leads to it or heads a chain that is too long or has no end (`Closes`). The main
statement, `defineAlias_cells`, says what is in the cells after an alias was accepted or refused: a
symbol that is refused for this reason has lost its value.
-/

set_option autoImplicit false

namespace LispMachine

open LispMachine.Action Storage

namespace SymbolTable

variable {table : SymbolTable}

/-! ### Following aliases -/

/-- Following the aliases of the first symbol, one meets the second. -/
inductive LeadsTo (table : SymbolTable) : Nat → Nat → Prop where
  | self (symbol : Nat) : LeadsTo table symbol symbol
  | step {symbol next last : Nat} (hcell : (table.get symbol).cell = .aliasOf next)
      (hnext : LeadsTo table next last) : LeadsTo table symbol last

/-- A symbol that is found is found with every greater bound. -/
theorem resolveWithin_mono {limit greater symbol holder : Nat} (hle : limit ≤ greater)
    (hresolve : table.resolveWithin limit symbol = some holder) :
    table.resolveWithin greater symbol = some holder := by
  induction limit generalizing greater symbol with
  | zero => cases hresolve
  | succ limit ih =>
    obtain ⟨greater, rfl⟩ := Nat.exists_eq_succ_of_ne_zero (Nat.ne_of_gt (Nat.zero_lt_of_lt hle))
    cases hcell : (table.get symbol).cell with
    | plain value =>
      rw [resolveWithin_of_plain hcell] at hresolve ⊢
      exact hresolve
    | aliasOf next =>
      rw [resolveWithin_of_aliasOf hcell] at hresolve ⊢
      exact ih (Nat.le_of_succ_le_succ hle) hresolve

/-! ### Changing one cell -/

/-- Making a symbol void leaves all cells as they are only if the symbol is void. -/
theorem cells_eq_iff_void {index : Nat} (hindex : index < table.size) :
    (∀ other, ((table.setCell index (.plain none)).get other).cell = (table.get other).cell) ↔
      (table.get index).cell = .plain none := by
  constructor
  · intro hcells
    exact (hcells index).symm.trans (cell_setCell_self hindex _)
  · intro hvoid other
    by_cases hother : index = other
    · subst hother
      exact (cell_setCell_self hindex _).trans hvoid.symm
    · exact cell_setCell_of_ne hother _

/-- The way to a symbol does not use its own cell. -/
theorem LeadsTo.setCell {start index : Nat} (hleads : table.LeadsTo start index)
    (cell : ValueCell) : (table.setCell index cell).LeadsTo start index := by
  induction hleads with
  | self symbol => exact .self symbol
  | @step symbol next last hcell _ ih =>
    by_cases hsymbol : last = symbol
    · exact hsymbol ▸ .self last
    · exact .step ((cell_setCell_of_ne hsymbol cell).trans hcell) ih

/-- A symbol that is not met makes no difference. -/
theorem resolveWithin_of_not_leadsTo {start index : Nat} (hnever : ¬ table.LeadsTo start index)
    (cell : ValueCell) (limit : Nat) :
    (table.setCell index cell).resolveWithin limit start = table.resolveWithin limit start := by
  induction limit generalizing start with
  | zero => rfl
  | succ limit ih =>
    have hsame : ((table.setCell index cell).get start).cell = (table.get start).cell := by
      refine cell_setCell_of_ne ?_ cell
      rintro rfl
      exact hnever (.self index)
    cases hcell : (table.get start).cell with
    | plain value =>
      rw [resolveWithin_of_plain hcell, resolveWithin_of_plain (hsame.trans hcell)]
    | aliasOf next =>
      rw [resolveWithin_of_aliasOf hcell, resolveWithin_of_aliasOf (hsame.trans hcell)]
      exact ih fun hnext ↦ hnever (.step hcell hnext)

/-- Whoever meets a circle of aliases finds no symbol. -/
theorem resolveWithin_of_circle {index target : Nat}
    (hcell : (table.get index).cell = .aliasOf target) (hback : table.LeadsTo target index)
    {start : Nat} (hleads : table.LeadsTo start index) (limit : Nat) :
    table.resolveWithin limit start = none := by
  induction limit generalizing start with
  | zero => rfl
  | succ limit ih =>
    cases hleads with
    | self =>
      -- the way ends at the alias itself, where the circle starts again
      rw [resolveWithin_of_aliasOf hcell, ih hback]
    | step hstart hnext => rw [resolveWithin_of_aliasOf hstart, ih hnext]

/-- An alias of the target cannot be followed: the target leads back to it, or no symbol is found
from the target with one step less. -/
def Closes (table : SymbolTable) (index target : Nat) : Prop :=
  table.LeadsTo target index ∨ table.resolveWithin (maxAliasChain - 1) target = none

section Redirecting

variable {index target : Nat} (hindex : index < table.size)

include hindex

theorem resolve?_setCell_aliasOf : (table.setCell index (.aliasOf target)).resolve? index =
    (table.setCell index (.aliasOf target)).resolveWithin (maxAliasChain - 1) target :=
  resolveWithin_of_aliasOf (cell_setCell_self hindex _) _

theorem resolve?_redirect :
    (table.setCell index (.aliasOf target)).resolve? index = none ↔ table.Closes index target := by
  rw [resolve?_setCell_aliasOf hindex]
  unfold Closes
  by_cases hback : table.LeadsTo target index
  · have hcircle := hback.setCell (.aliasOf target)
    simp only [hback, true_or, iff_true]
    exact resolveWithin_of_circle (cell_setCell_self hindex _) hcircle hcircle _
  · rw [resolveWithin_of_not_leadsTo hback]
    simp only [hback, false_or]

/-- An alias that can be followed leads where its target led before, and where it leads now. -/
theorem resolve?_of_not_closes (hopen : ¬ table.Closes index target) :
    ∃ holder, table.resolve? target = some holder ∧
      (table.setCell index (.aliasOf target)).resolve? target = some holder ∧
      (table.setCell index (.aliasOf target)).resolve? index = some holder := by
  obtain ⟨hnever, hshort⟩ := not_or.mp hopen
  obtain ⟨holder, hholder⟩ := Option.ne_none_iff_exists'.mp hshort
  have hchanged := (resolveWithin_of_not_leadsTo hnever (.aliasOf target) _).trans hholder
  exact ⟨holder, resolveWithin_mono (Nat.pred_le _) hholder,
    resolveWithin_mono (Nat.pred_le _) hchanged, (resolve?_setCell_aliasOf hindex).trans hchanged⟩

end Redirecting

end SymbolTable

/-! ### Defining an alias -/

namespace Storage

variable {symbol base : Value} {store : Store}

/-- The first symbol, which is no constant, may be made an alias of the second. -/
def MayAlias (store : Store) (symbol base : Value) (index target : Nat) : Prop :=
  symbol = .symbol index ∧ base = .symbol target ∧
    (store.symbols.get index).constant = false

/-- How making an alias ends. -/
inductive AliasEnd (store : Store) (symbol base : Value) :
    EStateM.Result (Stop StoreError) Store Value → Prop where
  /-- There is nothing that could be made an alias, or nothing to make it an alias of. -/
  | barred {reason : StoreError} {heap : Heap}
      (hbarred : ∀ index target, ¬ MayAlias store symbol base index target) :
      AliasEnd store symbol base (.error (.signal reason) { store with heap := heap })
  /-- The alias could not be followed, and the symbol is void now. -/
  | voided {index target : Nat} {data : Value} {heap : Heap}
      (hmay : MayAlias store symbol base index target)
      (hcloses : store.symbols.Closes index target) :
      AliasEnd store symbol base (.error (.signal ⟨Symbols.circularList, data⟩)
        { store with heap := heap, symbols := store.symbols.setCell index (.plain none) })
  | made {index target : Nat} (hmay : MayAlias store symbol base index target)
      (hopen : ¬ store.symbols.Closes index target) :
      AliasEnd store symbol base (.ok base
        { store with symbols := store.symbols.setCell index (.aliasOf target) })

/-- Making an alias, in one formula: the redirection is stored before it is tried out. -/
theorem defineAlias_apply (index target : Nat) (store : Store) :
    defineAlias (.symbol index) (.symbol target) store =
      if (store.symbols.get index).constant = true then
        error Symbols.settingConstant [.symbol index] store
      else if (store.symbols.setCell index (.aliasOf target)).resolve? index = none then
        error Symbols.circularList [.symbol index]
          { store with symbols := store.symbols.setCell index (.plain none) }
      else .ok (.symbol target)
        { store with symbols := store.symbols.setCell index (.aliasOf target) } := by
  unfold defineAlias
  change (if (store.symbols.get index).constant = true then _ else _ : Storage Value) store = _
  by_cases hconstant : (store.symbols.get index).constant = true
  · rw [if_pos hconstant, if_pos hconstant]
    rfl
  · rw [if_neg hconstant, if_neg hconstant]
    change (if ((store.symbols.setCell index (.aliasOf target)).resolve? index).isNone = true
      then _ else _ : Storage Value) _ = _
    simp only [Option.isNone_iff_eq_none]
    split_ifs
    · have hvoid : (store.symbols.setCell index (.aliasOf target)).setCell index (.plain none) =
          store.symbols.setCell index (.plain none) := SymbolTable.setCell_setCell ..
      exact congrArg (fun table ↦ error Symbols.circularList [.symbol index]
        { store with symbols := table }) hvoid
    · rfl

theorem defineAlias_ends (base : Value) (hsymbol : symbol.KnownTo store) :
    AliasEnd store symbol base (defineAlias symbol base store) := by
  cases symbol with
  | fixnum | object => exact .barred fun index target hmay ↦ Value.noConfusion hmay.1
  | symbol index =>
    cases base with
    | fixnum | object => exact .barred fun index target hmay ↦ Value.noConfusion hmay.2.1
    | symbol target =>
      rw [defineAlias_apply]
      split_ifs with hconstant hfollow
      · refine .barred fun other target hmay ↦ ?_
        cases hmay.1
        exact Bool.false_ne_true (hmay.2.2.symm.trans hconstant)
      · exact .voided ⟨rfl, rfl, Bool.eq_false_iff.mpr hconstant⟩
          ((SymbolTable.resolve?_redirect hsymbol).mp hfollow)
      · exact .made ⟨rfl, rfl, Bool.eq_false_iff.mpr hconstant⟩
          (mt (SymbolTable.resolve?_redirect hsymbol).mpr hfollow)

/-- What is in the cells after an alias was made or refused. The alias is made unless it could not
be followed; then its cell alone has changed, and it leads to the variable of the other symbol. An
alias that is refused leaves all cells as they were, but one that could not be followed leaves the
symbol void, whatever was in its cell. -/
theorem defineAlias_cells (base : Value) (hsymbol : symbol.KnownTo store) :
    ((∃ result after, defineAlias symbol base store = .ok result after) ↔
      ∃ index target, MayAlias store symbol base index target ∧
        ¬ store.symbols.Closes index target) ∧
    (∀ result after, defineAlias symbol base store = .ok result after →
      result = base ∧ ∃ index target holder, symbol = .symbol index ∧ base = .symbol target ∧
        (after.symbols.get index).cell = .aliasOf target ∧
        (∀ other, other ≠ index →
          (after.symbols.get other).cell = (store.symbols.get other).cell) ∧
        store.symbols.resolve? target = some holder ∧
        after.symbols.resolve? target = some holder ∧
        after.symbols.resolve? index = some holder) ∧
    ∀ stop after, defineAlias symbol base store = .error stop after →
      (∀ other, (after.symbols.get other).cell = (store.symbols.get other).cell) ∨
      ∃ index target data, MayAlias store symbol base index target ∧
        store.symbols.Closes index target ∧ (store.symbols.get index).cell ≠ .plain none ∧
        stop = .signal ⟨Symbols.circularList, data⟩ ∧
        after.symbols = store.symbols.setCell index (.plain none) := by
  have hends := defineAlias_ends base hsymbol
  generalize defineAlias symbol base store = ending at hends
  cases hends with
  | barred hbarred =>
    refine ⟨⟨nofun, fun hmade ↦ ?_⟩, nofun, ?_⟩
    · obtain ⟨index, target, hmay, -⟩ := hmade
      exact absurd hmay (hbarred index target)
    · rintro stop after ⟨⟩
      exact .inl fun other ↦ rfl
  | @voided index target data heap hmay hcloses =>
    refine ⟨⟨nofun, fun hmade ↦ ?_⟩, nofun, ?_⟩
    · obtain ⟨other, last, hother, hopen⟩ := hmade
      cases hmay.1.symm.trans hother.1
      cases hmay.2.1.symm.trans hother.2.1
      exact absurd hcloses hopen
    · rintro stop after ⟨⟩
      have hindex : index < store.symbols.size := by
        rw [hmay.1] at hsymbol
        exact hsymbol
      rcases eq_or_ne (store.symbols.get index).cell (.plain none) with hvoid | hholds
      · exact .inl ((SymbolTable.cells_eq_iff_void hindex).mpr hvoid)
      · exact .inr ⟨index, target, data, hmay, hcloses, hholds, rfl, rfl⟩
  | @made index target hmay hopen =>
    refine ⟨⟨fun _ ↦ ⟨index, target, hmay, hopen⟩, fun _ ↦ ⟨_, _, rfl⟩⟩, ?_, nofun⟩
    rintro result after ⟨⟩
    obtain ⟨rfl, rfl, -⟩ := hmay
    obtain ⟨holder, hbefore, htarget, hindex⟩ := SymbolTable.resolve?_of_not_closes hsymbol hopen
    exact ⟨rfl, index, target, holder, rfl, rfl, SymbolTable.cell_setCell_self hsymbol _,
      fun other hother ↦ SymbolTable.cell_setCell_of_ne hother.symm _, hbefore, htarget, hindex⟩

/-- An alias of an alias has the variable that this one has. -/
theorem defineAlias_cells_chain :
    let store : Store :=
      { heap := Heap.empty 1
        symbols := ⟨#[{ name := "x", cell := .plain (some (.fixnum 1)) },
          { name := "y", cell := .aliasOf 0 }, { name := "z" }]⟩ }
    (Value.symbol 2).KnownTo store ∧
      ∃ after, defineAlias (.symbol 2) (.symbol 1) store = .ok (.symbol 1) after ∧
        after.symbols.resolve? 2 = some 0 ∧
        (after.symbols.get 0).cell = .plain (some (.fixnum 1)) := by
  intro store
  have hknown : (Value.symbol 2).KnownTo store := by decide
  obtain ⟨-, hmade, -⟩ := defineAlias_cells (.symbol 1) hknown
  refine ⟨hknown, _, rfl, ?_⟩
  obtain ⟨-, index, target, holder, hindex, htarget, -, hothers, hbefore, -, hafter⟩ :=
    hmade (.symbol 1) _ rfl
  cases hindex
  cases htarget
  cases hbefore
  exact ⟨hafter, hothers 0 (by decide)⟩

/-- A variable that is made an alias of its own alias is refused, and its value is gone. -/
theorem defineAlias_voids :
    let store : Store :=
      { heap := Heap.empty 1
        symbols := ⟨#[{ name := "x", cell := .plain (some (.fixnum 1)) },
          { name := "y", cell := .aliasOf 0 }]⟩ }
    ∃ stop after, defineAlias (.symbol 0) (.symbol 1) store = .error stop after ∧
      (store.symbols.get 0).cell = .plain (some (.fixnum 1)) ∧
      (after.symbols.get 0).cell = .plain none := by
  intro store
  exact ⟨_, _, rfl, rfl, rfl⟩

end Storage

end LispMachine
