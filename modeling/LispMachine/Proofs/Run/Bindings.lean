import LispMachine.Proofs.Run.Progress
import LispMachine.Proofs.Store.Actions
import LispMachine.Proofs.Store.Applied

/-!
Dynamic binding is undone exactly. A sequence of calls binds variables and stores values in them,
each through whatever aliases lead there; some of the calls may fail. Undoing to the mark that was
set before the first call puts the log back, and decides for each symbol by the lowest of its
entries: a symbol that was bound holds again what it held before its first binding, and what was
stored in any other symbol stays (`unbindTo_undoes_bindings`).
-/

set_option autoImplicit false

namespace LispMachine

open LispMachine.Action Storage Engine

/-! ### Calls -/

/-- The ways to give a variable a value: to bind it, to assign to it in its own cell if that is its
place, and to set it. -/
inductive VariableCallKind where
  | bind
  | assign
  | set
  deriving DecidableEq

/-- A call that gives a variable a value. -/
structure VariableCall where
  kind : VariableCallKind
  symbol : Value
  value : Value

namespace VariableCall

def run (call : VariableCall) : Engine Unit :=
  match call.kind with
  | .bind => Engine.bindVariable call.symbol call.value
  | .assign => Storage.assign call.symbol call.value
  | .set => do let _ ← Storage.setVariable call.symbol call.value

/-- The machine after a call, whether it succeeded or failed. -/
def after (call : VariableCall) (machine : Machine) : Machine :=
  match call.run machine with
  | .ok _ after => after
  | .error _ after => after

/-- The call succeeds, and the symbol is the one at which it stores its value: the one that the
aliases lead to. -/
def Stores (symbol : Nat) (call : VariableCall) (machine : Machine) : Prop :=
  (∃ index, call.symbol = .symbol index ∧ machine.symbols.resolve? index = some symbol) ∧
    ∃ after, call.run machine = .ok () after

/-- The call is a binding that succeeds, and the symbol is the one that it binds. -/
def Binds (symbol : Nat) (call : VariableCall) (machine : Machine) : Prop :=
  call.kind = .bind ∧ call.Stores symbol machine

/-- The machine after calls that were made one after the other. -/
def afterAll : List VariableCall → Machine → Machine
  | [], machine => machine
  | call :: rest, machine => afterAll rest (call.after machine)

/-- For some of the calls it is true of the call and of the machine on which it is made. -/
def Occurs (happens : VariableCall → Machine → Prop) : List VariableCall → Machine → Prop
  | [], _ => False
  | call :: rest, machine => happens call machine ∨ Occurs happens rest (call.after machine)

theorem afterAll_append (earlier later : List VariableCall) (machine : Machine) :
    afterAll (earlier ++ later) machine = afterAll later (afterAll earlier machine) := by
  induction earlier generalizing machine with
  | nil => rfl
  | cons call earlier ih => exact ih (call.after machine)

end VariableCall

/-! ### Logs of bindings -/

/-- Every entry of the log is a binding, of a symbol for which the condition holds. -/
def BindingLog.BindsOnly (bound : Nat → Prop) (log : BindingLog) : Prop :=
  ∀ entry ∈ log, ∃ symbol old, entry = .binding symbol old ∧ bound symbol

/-- Put back what the bindings of a log hide, newest first. -/
def SymbolTable.restore (table : SymbolTable) : BindingLog → SymbolTable
  | [] => table
  | .binding symbol old :: rest => (table.setCell symbol (.plain old)).restore rest
  | _ :: rest => table.restore rest

theorem SymbolTable.size_restore (table : SymbolTable) (log : BindingLog) :
    (table.restore log).size = table.size := by
  induction log generalizing table with
  | nil => rfl
  | cons entry rest ih =>
    cases entry with
    | binding symbol old => exact (ih _).trans (size_setCell _ _)
    | _ => exact ih table

theorem SymbolTable.restore_append (table : SymbolTable) (newer older : BindingLog) :
    table.restore (newer ++ older) = (table.restore newer).restore older := by
  induction newer generalizing table with
  | nil => rfl
  | cons entry newer ih =>
    cases entry with
    | binding symbol old => exact ih _
    | _ => exact ih table

/-- Bindings of other symbols say nothing of the cell of a symbol. -/
theorem SymbolTable.cell_restore {table : SymbolTable} {symbol : Nat} {bound : Nat → Prop}
    {log : BindingLog} (hlog : log.BindsOnly bound) (hfree : ¬ bound symbol) :
    ((table.restore log).get symbol).cell = (table.get symbol).cell := by
  induction log generalizing table with
  | nil => rfl
  | cons entry rest ih =>
    obtain ⟨hentry, hrest⟩ := List.forall_mem_cons.mp hlog
    obtain ⟨other, old, rfl, hbound⟩ := hentry
    have hother : other ≠ symbol := by
      rintro rfl
      exact hfree hbound
    exact (ih hrest).trans (cell_setCell_of_ne hother _)

/-- Undoing nothing but bindings signals nothing, whoever is the caller. -/
theorem unwindFrom_of_bindsOnly (caller : Caller) {bound : Nat → Prop} {log below : BindingLog}
    (hlog : log.BindsOnly bound) {machine : Machine} (hbindings : machine.bindings = log ++ below)
    {rounds : Nat} (hrounds : log.length < rounds) :
    unwindFrom caller below.length rounds none machine =
      .ok none { machine with bindings := below, symbols := machine.symbols.restore log } := by
  induction log generalizing machine rounds with
  | nil =>
    obtain ⟨rounds, rfl⟩ := Nat.exists_eq_succ_of_ne_zero (Nat.ne_of_gt hrounds)
    obtain rfl : machine.bindings = below := hbindings
    have htaken : takeBinding machine.bindings.length machine = .ok none machine := by
      rw [takeBinding_apply]
      cases machine.bindings with
      | nil => rfl
      | cons entry rest => exact if_neg (Nat.not_succ_le_self _)
    exact bind_of_ok htaken
  | cons entry rest ih =>
    obtain ⟨hentry, hrest⟩ := List.forall_mem_cons.mp hlog
    obtain ⟨symbol, old, rfl, -⟩ := hentry
    obtain ⟨rounds, rfl⟩ := Nat.exists_eq_succ_of_ne_zero (Nat.ne_of_gt (Nat.zero_lt_of_lt hrounds))
    have htaken : takeBinding below.length machine =
        .ok (some (.binding symbol old)) { machine with bindings := rest ++ below } := by
      have hmark : below.length ≤ (rest ++ below).length := by
        rw [List.length_append]
        exact Nat.le_add_left _ _
      rw [takeBinding_apply, hbindings]
      exact if_pos hmark
    let restored : Machine :=
      { machine with
        bindings := rest ++ below
        symbols := machine.symbols.setCell symbol (.plain old) }
    have hattempt : caller.attempt (undo caller (.binding symbol old))
        { machine with bindings := rest ++ below } = .ok (.ok ()) restored := by
      rw [Caller.attempt_apply]
      rfl
    have hbelow : restored.bindings = rest ++ below := rfl
    have hlater := ih hrest hbelow (Nat.lt_of_succ_lt_succ hrounds)
    exact (bind_of_ok htaken).trans ((bind_of_ok hattempt).trans hlater)

theorem unbindTo_of_bindsOnly (caller : Caller) {bound : Nat → Prop} {log below : BindingLog}
    (hlog : log.BindsOnly bound) {machine : Machine}
    (hbindings : machine.bindings = log ++ below) :
    unbindTo caller below.length machine =
      .ok () { machine with bindings := below, symbols := machine.symbols.restore log } := by
  have hlength : log.length ≤ machine.bindings.length := by
    rw [hbindings, List.length_append]
    exact Nat.le_add_right _ _
  have hrounds : log.length < machine.bindings.length + 1 + caller.rounds := by omega
  exact bind_of_ok (unwindFrom_of_bindsOnly caller hlog hbindings hrounds)

/-! ### What a call does -/

/-- A symbol to whose value something may be assigned, or an error that changes nothing but the
heap. -/
theorem resolveAssignable_cases (symbol : Value) (store : Store) :
    (∃ index target, symbol = .symbol index ∧ store.symbols.resolve? index = some target ∧
      resolveAssignable symbol store = .ok target store) ∨
    ∃ reason heap, resolveAssignable symbol store =
      .error (.signal reason) { store with heap := heap } := by
  cases symbol with
  | fixnum | object => exact .inr ⟨_, _, rfl⟩
  | symbol index =>
    rw [resolveAssignable_apply]
    cases hresolve : store.symbols.resolve? index with
    | none => exact .inr ⟨_, _, rfl⟩
    | some target =>
      dsimp only
      split_ifs
      · exact .inr ⟨_, _, rfl⟩
      · exact .inl ⟨index, target, rfl, hresolve, rfl⟩

namespace VariableCall

/-- What the call leaves when it stores its value at the given symbol. -/
def stored (call : VariableCall) (target : Nat) (machine : Machine) : Machine :=
  { machine with
    symbols := machine.symbols.setCell target (.plain (some call.value))
    bindings :=
      match call.kind with
      | .bind => .binding target (machine.symbols.plainValue? target) :: machine.bindings
      | _ => machine.bindings }

theorem setVariable_cases (symbol value : Value) (store : Store) :
    (∃ index target, symbol = .symbol index ∧ store.symbols.resolve? index = some target ∧
      setVariable symbol value store = .ok value
        { store with symbols := store.symbols.setCell target (.plain (some value)) }) ∨
    ∃ reason heap, setVariable symbol value store =
      .error (.signal reason) { store with heap := heap } := by
  unfold setVariable
  obtain ⟨index, target, hsymbol, hresolve, hrun⟩ | ⟨reason, heap, hrun⟩ :=
    resolveAssignable_cases symbol store
  · exact .inl ⟨index, target, hsymbol, hresolve, bind_of_ok hrun⟩
  · exact .inr ⟨reason, heap, bind_of_error hrun⟩

theorem assign_cases (symbol value : Value) (store : Store) :
    (∃ index target, symbol = .symbol index ∧ store.symbols.resolve? index = some target ∧
      assign symbol value store = .ok ()
        { store with symbols := store.symbols.setCell target (.plain (some value)) }) ∨
    ∃ reason heap, assign symbol value store =
      .error (.signal reason) { store with heap := heap } := by
  obtain ⟨index, table, rfl, hassigned, hrun⟩ | hrun := assign_plain_or_set symbol value store
  · obtain ⟨-, rfl⟩ := SymbolTable.assignPlain?_eq_some hassigned
    exact .inl ⟨index, index, rfl, SymbolTable.resolve?_of_assignPlain? hassigned, hrun⟩
  · rw [hrun]
    obtain ⟨index, target, hsymbol, hresolve, hset⟩ | ⟨reason, heap, hset⟩ :=
      setVariable_cases symbol value store
    · exact .inl ⟨index, target, hsymbol, hresolve, bind_of_ok hset⟩
    · exact .inr ⟨reason, heap, bind_of_error hset⟩

/-- A call stores its value at the symbol that the aliases lead to, or fails and changes nothing but
the heap. -/
theorem run_cases (call : VariableCall) (machine : Machine) :
    (∃ index target, call.symbol = .symbol index ∧
      machine.symbols.resolve? index = some target ∧
      call.run machine = .ok () (call.stored target machine)) ∨
    ∃ reason heap, call.run machine = .error (.signal reason) { machine with heap := heap } := by
  obtain ⟨kind, symbol, value⟩ := call
  cases kind with
  | bind =>
    obtain ⟨index, target, hsymbol, hresolve, hrun⟩ | ⟨reason, heap, hrun⟩ :=
      resolveAssignable_cases symbol machine.toStore
    · exact .inl ⟨index, target, hsymbol, hresolve, bind_of_ok (liftM_of_ok hrun)⟩
    · exact .inr ⟨_, heap, bind_of_error (liftM_of_signal hrun)⟩
  | assign =>
    obtain ⟨index, target, hsymbol, hresolve, hrun⟩ | ⟨reason, heap, hrun⟩ :=
      assign_cases symbol value machine.toStore
    · exact .inl ⟨index, target, hsymbol, hresolve, liftM_of_ok hrun⟩
    · exact .inr ⟨_, heap, liftM_of_signal hrun⟩
  | set =>
    obtain ⟨index, target, hsymbol, hresolve, hrun⟩ | ⟨reason, heap, hrun⟩ :=
      setVariable_cases symbol value machine.toStore
    · exact .inl ⟨index, target, hsymbol, hresolve, bind_of_ok (liftM_of_ok hrun)⟩
    · exact .inr ⟨_, heap, bind_of_error (liftM_of_signal hrun)⟩

/-- What is known of the machine after a call: it has stored its value at the symbol that the aliases
lead to, or nothing but the heap has changed. -/
theorem after_cases (call : VariableCall) (machine : Machine) :
    (∃ target, call.Stores target machine ∧ call.after machine = call.stored target machine) ∨
    (∀ target, ¬ call.Stores target machine) ∧
      ∃ heap, call.after machine = { machine with heap := heap } := by
  unfold after
  obtain ⟨index, target, hsymbol, hresolve, hrun⟩ | ⟨reason, heap, hrun⟩ := call.run_cases machine
  · rw [hrun]
    exact .inl ⟨target, ⟨⟨index, hsymbol, hresolve⟩, _, hrun⟩, rfl⟩
  · rw [hrun]
    refine .inr ⟨fun target hstores ↦ ?_, heap, rfl⟩
    obtain ⟨-, after, hok⟩ := hstores
    rw [hrun] at hok
    cases hok

/-- A call stores at one symbol. -/
theorem Stores.unique {call : VariableCall} {machine : Machine} {target target' : Nat}
    (hstores : call.Stores target machine) (hstores' : call.Stores target' machine) :
    target = target' := by
  obtain ⟨⟨index, hsymbol, hresolve⟩, -⟩ := hstores
  obtain ⟨⟨index', hsymbol', hresolve'⟩, -⟩ := hstores'
  cases hsymbol.symm.trans hsymbol'
  exact Option.some.inj (hresolve.symm.trans hresolve')

theorem Stores.after_eq {call : VariableCall} {machine : Machine} {target : Nat}
    (hstores : call.Stores target machine) : call.after machine = call.stored target machine := by
  obtain ⟨target', hstores', hafter⟩ | ⟨hnever, -⟩ := call.after_cases machine
  · cases hstores.unique hstores'
    exact hafter
  · exact absurd hstores (hnever target)

theorem size_after (call : VariableCall) (machine : Machine) :
    (call.after machine).symbols.size = machine.symbols.size := by
  obtain ⟨target, -, hafter⟩ | ⟨-, heap, hafter⟩ := call.after_cases machine
  · rw [hafter]
    exact SymbolTable.size_setCell _ _
  · rw [hafter]

theorem size_afterAll (calls : List VariableCall) (machine : Machine) :
    (afterAll calls machine).symbols.size = machine.symbols.size := by
  induction calls generalizing machine with
  | nil => rfl
  | cons call calls ih => exact (ih (call.after machine)).trans (call.size_after machine)

/-- A call that does not store at a symbol leaves its cell as it is. -/
theorem cell_after {call : VariableCall} {machine : Machine} {symbol : Nat}
    (hnever : ¬ call.Stores symbol machine) :
    ((call.after machine).symbols.get symbol).cell = (machine.symbols.get symbol).cell := by
  obtain ⟨target, hstores, hafter⟩ | ⟨-, heap, hafter⟩ := call.after_cases machine
  · have hother : target ≠ symbol := by
      rintro rfl
      exact hnever hstores
    rw [hafter]
    exact SymbolTable.cell_setCell_of_ne hother _
  · rw [hafter]

/-- Calls of which none stores at a symbol leave its cell as it is. -/
theorem cell_afterAll {symbol : Nat} {calls : List VariableCall} {machine : Machine}
    (hnever : ¬ Occurs (Stores symbol) calls machine) :
    ((afterAll calls machine).symbols.get symbol).cell = (machine.symbols.get symbol).cell := by
  induction calls generalizing machine with
  | nil => rfl
  | cons call calls ih =>
    obtain ⟨hcall, hlater⟩ := not_or.mp hnever
    exact (ih hlater).trans (cell_after hcall)

/-! ### The log that calls leave -/

/-- A binding hides the cell of its symbol. -/
theorem Binds.bindings_after {call : VariableCall} {machine : Machine} {symbol : Nat}
    (hbinds : call.Binds symbol machine) :
    ∃ old, (machine.symbols.get symbol).cell = .plain old ∧
      (call.after machine).bindings = .binding symbol old :: machine.bindings := by
  obtain ⟨hkind, hstores⟩ := hbinds
  obtain ⟨⟨index, -, hresolve⟩, -⟩ := id hstores
  refine ⟨_, SymbolTable.cell_of_resolve? hresolve, ?_⟩
  rw [hstores.after_eq]
  unfold stored
  rw [hkind]

/-- A call leaves a binding in the log when it binds, and nothing else. -/
theorem bindings_after (call : VariableCall) (machine : Machine) :
    ∃ log, (call.after machine).bindings = log ++ machine.bindings ∧
      log.BindsOnly fun symbol ↦ call.Binds symbol machine := by
  obtain ⟨target, hstores, hafter⟩ | ⟨-, heap, hafter⟩ := call.after_cases machine
  · by_cases hkind : call.kind = .bind
    · have hbinds : call.Binds target machine := ⟨hkind, hstores⟩
      obtain ⟨old, -, hlog⟩ := hbinds.bindings_after
      refine ⟨[.binding target old], hlog, fun entry hentry ↦ ?_⟩
      exact ⟨target, old, List.mem_singleton.mp hentry, hbinds⟩
    · refine ⟨[], ?_, nofun⟩
      rw [hafter]
      unfold stored
      cases hcall : call.kind with
      | bind => exact absurd hcall hkind
      | _ => rfl
  · rw [hafter]
    exact ⟨[], rfl, nofun⟩

/-- Calls leave bindings in the log, of symbols that one of them binds, and nothing else. -/
theorem bindings_afterAll (calls : List VariableCall) (machine : Machine) :
    ∃ log, (afterAll calls machine).bindings = log ++ machine.bindings ∧
      log.BindsOnly fun symbol ↦ Occurs (Binds symbol) calls machine := by
  induction calls generalizing machine with
  | nil => exact ⟨[], rfl, nofun⟩
  | cons call calls ih =>
    obtain ⟨older, holder, hfirst⟩ := call.bindings_after machine
    obtain ⟨newer, hnewer, hlater⟩ := ih (call.after machine)
    refine ⟨newer ++ older, ?_, fun entry hentry ↦ ?_⟩
    · rw [List.append_assoc, ← holder]
      exact hnewer
    · rcases List.mem_append.mp hentry with hmem | hmem
      · obtain ⟨symbol, old, rfl, hbound⟩ := hlater entry hmem
        exact ⟨symbol, old, rfl, .inr hbound⟩
      · obtain ⟨symbol, old, rfl, hbound⟩ := hfirst entry hmem
        exact ⟨symbol, old, rfl, .inl hbound⟩

end VariableCall

/-! ### Undoing what calls have bound -/

open VariableCall

/-- Whatever calls bind variables and store values in them, undoing to the mark that was set before
the first of them signals nothing and puts the log back. A symbol that one of the calls has bound
holds what it held just before the first such call. In any other symbol stays what the last call that
stored there has stored, or what was there before, if none did. -/
theorem unbindTo_undoes_bindings (caller : Caller) (machine : Machine)
    (calls : List VariableCall) :
    ∃ final, unbindTo caller machine.bindings.length (afterAll calls machine) = .ok () final ∧
      final.bindings = machine.bindings ∧
      ∀ symbol, symbol < machine.symbols.size →
        (∀ earlier call later, calls = earlier ++ call :: later →
          call.Binds symbol (afterAll earlier machine) → ¬ Occurs (Binds symbol) earlier machine →
            (final.symbols.get symbol).cell =
              ((afterAll earlier machine).symbols.get symbol).cell) ∧
        (¬ Occurs (Binds symbol) calls machine →
          (∀ earlier call later, calls = earlier ++ call :: later →
            call.Stores symbol (afterAll earlier machine) →
            ¬ Occurs (Stores symbol) later (afterAll (earlier ++ [call]) machine) →
              (final.symbols.get symbol).cell = .plain (some call.value)) ∧
          (¬ Occurs (Stores symbol) calls machine →
            (final.symbols.get symbol).cell = (machine.symbols.get symbol).cell)) := by
  obtain ⟨log, hlog, hbinds⟩ := bindings_afterAll calls machine
  refine ⟨_, unbindTo_of_bindsOnly caller hbinds hlog, rfl, fun symbol hsymbol ↦ ⟨?_, ?_⟩⟩
  · rintro earlier call later rfl hbound hfirst
    -- The entry of the first binding is the lowest one of the symbol.
    obtain ⟨older, holder, hbefore⟩ := bindings_afterAll earlier machine
    obtain ⟨old, hcell, hentry⟩ := hbound.bindings_after
    obtain ⟨newer, hnewer, -⟩ := bindings_afterAll later (call.after (afterAll earlier machine))
    obtain rfl : log = newer ++ .binding symbol old :: older := by
      rw [afterAll_append, afterAll, hnewer, hentry, holder, ← List.cons_append,
        ← List.append_assoc] at hlog
      exact (List.append_cancel_right hlog).symm
    rw [SymbolTable.restore_append, hcell]
    refine (SymbolTable.cell_restore hbefore hfirst).trans ?_
    refine SymbolTable.cell_setCell_self ?_ _
    rw [SymbolTable.size_restore]
    exact (size_afterAll _ machine).symm ▸ hsymbol
  · intro hfree
    rw [SymbolTable.cell_restore hbinds hfree]
    refine ⟨?_, cell_afterAll⟩
    rintro earlier call later rfl hstores hlast
    rw [afterAll_append] at hlast
    rw [afterAll_append]
    refine (cell_afterAll hlast).trans ?_
    change ((call.after (afterAll earlier machine)).symbols.get symbol).cell = _
    rw [hstores.after_eq]
    exact SymbolTable.cell_setCell_self ((size_afterAll _ machine).symm ▸ hsymbol) _

/-- A variable that is bound through an alias, then set and bound again, holds its first value
again. -/
theorem unbindTo_undoes_bindings_alias :
    let x : Symbol := { name := "x", cell := .plain (some (.fixnum 1)) }
    let y : Symbol := { name := "y", cell := .aliasOf 0 }
    let machine : Machine := { heap := .empty 1, symbols := ⟨#[x, y]⟩, settings := {} }
    let calls : List VariableCall :=
      [⟨.bind, .symbol 1, .fixnum 2⟩, ⟨.set, .symbol 0, .fixnum 3⟩, ⟨.bind, .symbol 0, .nil⟩]
    ((afterAll calls machine).symbols.get 0).cell = .plain (some .nil) ∧
      ∃ final, unbindTo (.bounded 0) 0 (afterAll calls machine) = .ok () final ∧
        final.bindings = [] ∧ (final.symbols.get 0).cell = .plain (some (.fixnum 1)) := by
  intro x y machine calls
  obtain ⟨final, hrun, hlog, hcells⟩ := unbindTo_undoes_bindings (.bounded 0) machine calls
  have hbound : VariableCall.Binds 0 ⟨.bind, .symbol 1, .fixnum 2⟩ machine :=
    ⟨rfl, ⟨1, rfl, rfl⟩, _, rfl⟩
  exact ⟨rfl, final, hrun, hlog, (hcells 0 (by decide)).1 [] _ _ rfl hbound id⟩

end LispMachine
