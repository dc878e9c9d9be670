import LispMachine.Proofs.Store.Actions
import LispMachine.Proofs.Symbol.Aliases

/-!
Reading and setting variables through aliases. Code looks at a symbol's own cell first and takes the
general way, through the aliases, only where that does not do. Reading is the same both ways
(`variableValue_eq_symbolValue`) and so is setting (`assign_eq_setVariable`), so the shortcuts
cannot be told from the general way. Setting a variable replaces the value in a cell that is no
redirection, so all symbols lead where they led before (`resolveWithin_of_links`), and only those
that lead to this cell read something else (`Store.reading_setCell`). The main statement,
`assign_through_aliases`, asks nothing of the table but that no alias leads out of it, which is so
in every sound store (`Store.Sound.closed`).
-/

set_option autoImplicit false

namespace LispMachine

open LispMachine.Action Storage

namespace SymbolTable

variable {table changed : SymbolTable}

/-- The two tables have the same redirections. -/
def SameLinks (changed table : SymbolTable) : Prop :=
  ∀ index target,
    (changed.get index).cell = .aliasOf target ↔ (table.get index).cell = .aliasOf target

theorem resolveWithin_of_links (hlinks : changed.SameLinks table) (limit index : Nat) :
    changed.resolveWithin limit index = table.resolveWithin limit index := by
  induction limit generalizing index with
  | zero => rfl
  | succ limit ih =>
    cases hcell : (table.get index).cell with
    | aliasOf next =>
      rw [resolveWithin_of_aliasOf hcell, resolveWithin_of_aliasOf ((hlinks index next).mpr hcell)]
      exact ih next
    | plain value =>
      cases hchanged : (changed.get index).cell with
      | aliasOf next =>
        cases hcell.symm.trans ((hlinks index next).mp hchanged)
      | plain value => rw [resolveWithin_of_plain hcell, resolveWithin_of_plain hchanged]

/-- A value that replaces another is no redirection. -/
theorem sameLinks_setCell {index target : Nat} (hresolve : table.resolve? index = some target)
    (value : Option Value) : (table.setCell target (.plain value)).SameLinks table := by
  intro other next
  rw [cell_setCell]
  split_ifs with hother
  · obtain ⟨rfl, -⟩ := hother
    rw [cell_of_resolve? hresolve]
    exact ⟨nofun, nofun⟩
  · rfl

end SymbolTable

namespace Storage

variable {store : Store}

/-! ### The two ways -/

/-- What is read from the symbol's own cell is what is found through its aliases. -/
theorem variableValue_eq_symbolValue (symbol : Value) :
    variableValue symbol = symbolValue symbol := by
  funext store
  cases symbol with
  | fixnum | object => rfl
  | symbol index =>
    rw [variableValue_apply]
    cases hplain : store.symbols.plainValue? index with
    | none => rfl
    | some value =>
      have hcell : (store.symbols.get index).cell = .plain (some value) := by
        unfold SymbolTable.plainValue? at hplain
        split at hplain
        · next hcell => rw [hcell, hplain]
        · cases hplain
      rw [symbolValue_apply, SymbolTable.resolve?_of_plain hcell]
      dsimp only
      rw [hplain]
      rfl

theorem setVariable_apply (index : Nat) (value : Value) (store : Store) :
    setVariable (.symbol index) value store =
      match store.symbols.resolve? index with
      | none => error Symbols.circularList [.symbol index] store
      | some target =>
        if (store.symbols.get target).constant = true then
          error Symbols.settingConstant [.symbol index] store
        else .ok value
          { store with symbols := store.symbols.setCell target (.plain (some value)) } := by
  have hassignable := resolveAssignable_apply index store
  cases htarget : store.symbols.resolve? index with
  | none =>
    rw [htarget] at hassignable
    exact bind_of_error hassignable
  | some target =>
    rw [htarget] at hassignable
    dsimp only at hassignable ⊢
    split_ifs at hassignable ⊢
    · exact bind_of_error hassignable
    · exact bind_of_ok hassignable

/-- What is stored in the symbol's own cell is stored where its aliases lead. -/
theorem assign_eq_setVariable (symbol value : Value) :
    assign symbol value = (do let _ ← setVariable symbol value : Storage Unit) := by
  funext store
  obtain ⟨index, table, rfl, hassigned, hrun⟩ | hrun := assign_plain_or_set symbol value store
  · obtain ⟨hconstant, rfl⟩ := SymbolTable.assignPlain?_eq_some hassigned
    have hset := setVariable_apply index value store
    rw [SymbolTable.resolve?_of_assignPlain? hassigned] at hset
    dsimp only at hset
    rw [if_neg (Bool.eq_false_iff.mp hconstant)] at hset
    refine hrun.trans (Eq.symm ?_)
    exact bind_of_ok hset
  · exact hrun

theorem assign_apply (index : Nat) (value : Value) (store : Store) :
    assign (.symbol index) value store =
      match store.symbols.resolve? index with
      | none => error Symbols.circularList [.symbol index] store
      | some target =>
        if (store.symbols.get target).constant = true then
          error Symbols.settingConstant [.symbol index] store
        else .ok ()
          { store with symbols := store.symbols.setCell target (.plain (some value)) } := by
  have hset := setVariable_apply index value store
  rw [assign_eq_setVariable]
  cases htarget : store.symbols.resolve? index with
  | none =>
    rw [htarget] at hset
    exact bind_of_error hset
  | some target =>
    rw [htarget] at hset
    dsimp only at hset ⊢
    split_ifs at hset ⊢
    · exact bind_of_error hset
    · exact bind_of_ok hset

end Storage

/-! ### What is read -/

/-- What reading the variable of a symbol gives: its value, or the reason why it has none. -/
def Store.reading (store : Store) (symbol : Nat) : Except (Stop StoreError) Value :=
  match symbolValue (.symbol symbol) store with
  | .ok value _ => .ok value
  | .error stop _ => .error stop

namespace Store

variable {store : Store}

theorem reading_of_value {symbol target : Nat} {value : Value}
    (hresolve : store.symbols.resolve? symbol = some target)
    (hvalue : store.symbols.plainValue? target = some value) :
    store.reading symbol = .ok value := by
  unfold reading
  rw [symbolValue_apply, hresolve]
  dsimp only
  rw [hvalue]

/-- Reading depends on where the symbol leads and on what is there. -/
theorem reading_congr {table : SymbolTable} {symbol : Nat}
    (hresolve : table.resolve? symbol = store.symbols.resolve? symbol)
    (hvalue : ∀ target, store.symbols.resolve? symbol = some target →
      table.plainValue? target = store.symbols.plainValue? target) :
    { store with symbols := table : Store }.reading symbol = store.reading symbol := by
  unfold reading
  rw [symbolValue_apply, symbolValue_apply, hresolve]
  cases htarget : store.symbols.resolve? symbol with
  | none => rfl
  | some target =>
    dsimp only
    rw [hvalue target htarget]
    cases store.symbols.plainValue? target with
    | none | some => rfl

/-- A value is put where a symbol leads: the symbols that lead there read it, and all others read
what they read before. -/
theorem reading_setCell {symbol target : Nat} (htarget : target < store.symbols.size)
    (hresolve : store.symbols.resolve? symbol = some target) (value : Value) (other : Nat) :
    { store with symbols := store.symbols.setCell target (.plain (some value)) : Store }.reading
        other =
      if store.symbols.resolve? other = some target then .ok value else store.reading other := by
  have hother : (store.symbols.setCell target (.plain (some value))).resolve? other =
      store.symbols.resolve? other :=
    SymbolTable.resolveWithin_of_links (SymbolTable.sameLinks_setCell hresolve _) _ _
  split_ifs with hleads
  · exact reading_of_value (hother.trans hleads)
      (SymbolTable.plainValue?_of_plain (SymbolTable.cell_setCell_self htarget _))
  · refine reading_congr hother fun last hlast ↦ ?_
    have hne : target ≠ last := by
      rintro rfl
      exact hleads hlast
    unfold SymbolTable.plainValue?
    rw [SymbolTable.cell_setCell_of_ne hne]

end Store

/-- Variables through aliases. Code reads a symbol as the general way does. It can set the symbol
exactly if this leads to one that is no constant; then all symbols that lead to the same one read
the new value, all others read what they read before, and every alias is what it was. If it cannot,
no symbol has changed. -/
theorem assign_through_aliases {store : Store} (hclosed : store.symbols.Closed) {symbol : Nat}
    (hsymbol : symbol < store.symbols.size) (value : Value) :
    variableValue (.symbol symbol) = symbolValue (.symbol symbol) ∧
    ((∃ after, assign (.symbol symbol) value store = .ok () after) ↔
      ∃ target, store.symbols.resolve? symbol = some target ∧
        (store.symbols.get target).constant = false) ∧
    (∀ after, assign (.symbol symbol) value store = .ok () after →
      (∀ other, after.symbols.resolve? other = store.symbols.resolve? other) ∧
      (∀ other, store.symbols.resolve? other = store.symbols.resolve? symbol →
        after.reading other = .ok value) ∧
      (∀ other, store.symbols.resolve? other ≠ store.symbols.resolve? symbol →
        after.reading other = store.reading other) ∧
      after.symbols.SameLinks store.symbols) ∧
    ∀ stop after, assign (.symbol symbol) value store = .error stop after →
      after.symbols = store.symbols := by
  refine ⟨variableValue_eq_symbolValue _, ?_⟩
  rw [assign_apply]
  cases hresolve : store.symbols.resolve? symbol with
  | none =>
    refine ⟨⟨nofun, nofun⟩, nofun, ?_⟩
    rintro stop after ⟨⟩
    rfl
  | some target =>
    dsimp only
    have htarget : target < store.symbols.size := hclosed.resolveWithin_lt hsymbol hresolve
    have hlinks := SymbolTable.sameLinks_setCell hresolve (some value)
    have hreading := Store.reading_setCell htarget hresolve value
    split_ifs with hconstant
    · refine ⟨⟨nofun, ?_⟩, nofun, ?_⟩
      · rintro ⟨last, hlast, hchangeable⟩
        cases hlast
        exact absurd hconstant (Bool.eq_false_iff.mp hchangeable)
      · rintro stop after ⟨⟩
        rfl
    · refine ⟨⟨fun _ ↦ ⟨target, rfl, Bool.eq_false_iff.mpr hconstant⟩, fun _ ↦ ⟨_, rfl⟩⟩, ?_, nofun⟩
      rintro after ⟨⟩
      refine ⟨SymbolTable.resolveWithin_of_links hlinks _, fun other hother ↦ ?_,
        fun other hother ↦ ?_, hlinks⟩
      · rw [hreading, if_pos hother]
      · rw [hreading, if_neg hother]

/-- A variable is set through an alias of its alias, while a circle of aliases stays one. -/
theorem assign_through_aliases_chain :
    let store : Store :=
      { heap := Heap.empty 1
        symbols := ⟨#[{ name := "x", cell := .plain (some (.fixnum 1)) },
          { name := "y", cell := .aliasOf 0 }, { name := "z", cell := .aliasOf 1 },
          { name := "loop", cell := .aliasOf 3 }]⟩ }
    store.symbols.Closed ∧ 2 < store.symbols.size ∧
      ∃ after, assign (.symbol 2) (.fixnum 7) store = .ok () after ∧
        (∀ other ∈ [0, 1, 2], after.reading other = .ok (.fixnum 7)) ∧
        after.reading 3 = store.reading 3 := by
  intro store
  have hclosed : store.symbols.Closed := by
    intro index target hcell
    match index with
    | 0 => cases hcell
    | 1 | 2 | 3 =>
      cases hcell
      decide
    | index + 4 => cases hcell
  have hsymbol : 2 < store.symbols.size := by decide
  obtain ⟨-, -, hset, -⟩ := assign_through_aliases hclosed hsymbol (.fixnum 7)
  obtain ⟨-, hsame, hothers, -⟩ := hset _ rfl
  refine ⟨hclosed, hsymbol, _, rfl, ?_, hothers 3 (by decide)⟩
  simp only [List.forall_mem_cons]
  exact ⟨hsame 0 (by decide), hsame 1 (by decide), hsame 2 (by decide), nofun⟩

end LispMachine
