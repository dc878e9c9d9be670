import LispMachine.Proofs.Equality.Unfolding

/-!
`equal` on every heap. The comparison is taken here turn by turn, with the pairs that are still to
be compared on a stack and nothing that bounds the number of turns (`Heap.compareFor`). It comes to
an answer all the same, because every turn replaces a pair by pairs one level further down and
nothing is opened below `maxEqualDepth`; the answer is the one that `equal` gives. That a comparison
of any number of levels is reflexive, symmetric and transitive follows level by level from
`equalWithin_succ_iff`. The main statement is `equal_equivalence`; it holds for circular structures
as for others.
-/

set_option autoImplicit false

namespace LispMachine

namespace Heap

variable {heap : Heap} {a b c : Value} {levels : Nat}

/-! ### Turn by turn -/

/-- Two values that are still to be compared, and how far they are below those that were given. -/
structure Pending where
  depth : Nat
  left : Value
  right : Value

/-- What remains to be compared once two values have been looked at, unless they differ. -/
def openPair? (heap : Heap) (pair : Pending) : Option (List Pending) :=
  if heap.eql pair.left pair.right then some []
  else if maxEqualDepth < pair.depth then none
  else
    let below := pair.depth + 1
    match heap.get? pair.left, heap.get? pair.right with
    | some (.cons carA cdrA), some (.cons carB cdrB) =>
      some [⟨below, carA, carB⟩, ⟨below, cdrA, cdrB⟩]
    | some (.string textA), some (.string textB) => if textA = textB then some [] else none
    | some (.vector itemsA), some (.vector itemsB) =>
      if itemsA.size = itemsB.size then
        some ((itemsA.zip itemsB).toList.map fun (itemA, itemB) ↦ ⟨below, itemA, itemB⟩)
      else none
    | some (.marker markerA), some (.marker markerB) =>
      if markerA = markerB then some [] else none
    | _, _ => none

/-- One turn: the first of the pairs is looked at. -/
def compareNext (heap : Heap) : List Pending → Option (List Pending)
  | [] => some []
  | pair :: rest => (heap.openPair? pair).map (· ++ rest)

/-- The pairs that are left after a number of turns, unless a difference has been found. -/
def compareFor (heap : Heap) : Nat → List Pending → Option (List Pending)
  | 0, pairs => some pairs
  | turns + 1, pairs => (heap.compareNext pairs).bind (heap.compareFor turns)

/-- The comparison of two values ends with this answer: no pair is left, or they differ. -/
def ComparesTo (heap : Heap) (a b : Value) (answer : Bool) : Prop :=
  ∃ turns, heap.compareFor turns [⟨0, a, b⟩] = if answer then some [] else none

theorem compareFor_nil (heap : Heap) (turns : Nat) : heap.compareFor turns [] = some [] := by
  induction turns with
  | zero => rfl
  | succ turns ih => exact ih

theorem compareFor_add (heap : Heap) (turns more : Nat) (pairs : List Pending) :
    heap.compareFor (turns + more) pairs =
      (heap.compareFor turns pairs).bind (heap.compareFor more) := by
  induction turns generalizing pairs with
  | zero => rw [Nat.zero_add]; rfl
  | succ turns ih =>
    rw [Nat.succ_add, compareFor, compareFor, Option.bind_assoc]
    exact congrArg (heap.compareNext pairs).bind (funext ih)

/-- A comparison has one answer. -/
theorem ComparesTo.unique {first second : Bool} (hfirst : heap.ComparesTo a b first)
    (hsecond : heap.ComparesTo a b second) : first = second := by
  obtain ⟨turns, hturns⟩ := hfirst
  obtain ⟨others, hothers⟩ := hsecond
  have hkeeps {answer : Bool} {turns : Nat} (more : Nat)
      (hanswer : heap.compareFor turns [⟨0, a, b⟩] = if answer then some [] else none) :
      heap.compareFor (turns + more) [⟨0, a, b⟩] = if answer then some [] else none := by
    rw [compareFor_add, hanswer]
    cases answer
    · rfl
    · exact heap.compareFor_nil more
  have hboth := (hkeeps others hturns).symm.trans (Nat.add_comm turns others ▸ hkeeps turns hothers)
  cases first <;> cases second <;> simp_all

/-- The comparison of the first pairs comes to its end, whatever is below them on the stack. -/
def Decides (heap : Heap) (pairs : List Pending) (answer : Bool) : Prop :=
  ∀ rest, ∃ turns,
    heap.compareFor turns (pairs ++ rest) = if answer then some rest else none

theorem Decides.nil : heap.Decides [] true := fun _ ↦ ⟨0, rfl⟩

theorem Decides.cons {pair : Pending} {pairs : List Pending} {first others : Bool}
    (hfirst : heap.Decides [pair] first) (hothers : heap.Decides pairs others) :
    heap.Decides (pair :: pairs) (first && others) := by
  intro rest
  obtain ⟨turns, hturns⟩ := hfirst (pairs ++ rest)
  cases first with
  | false => exact ⟨turns, hturns⟩
  | true =>
    obtain ⟨more, hmore⟩ := hothers rest
    refine ⟨turns + more, ?_⟩
    rw [compareFor_add]
    exact (congrArg (Option.bind · _) hturns).trans hmore

theorem Decides.all {pairs : List Pending} {test : Pending → Bool}
    (hpairs : ∀ pair ∈ pairs, heap.Decides [pair] (test pair)) :
    heap.Decides pairs (pairs.all test) := by
  induction pairs with
  | nil => exact .nil
  | cons pair pairs ih =>
    rw [List.all_cons]
    exact .cons (hpairs pair List.mem_cons_self)
      (ih fun other hmem ↦ hpairs other (List.mem_cons_of_mem _ hmem))

/-- A pair is decided when what it is opened into is. -/
theorem Decides.of_open {pair : Pending} {pairs : List Pending} {answer : Bool}
    (hopen : heap.openPair? pair = some pairs) (hpairs : heap.Decides pairs answer) :
    heap.Decides [pair] answer := by
  intro rest
  obtain ⟨turns, hturns⟩ := hpairs rest
  refine ⟨turns + 1, ?_⟩
  change ((heap.openPair? pair).map (· ++ rest)).bind (heap.compareFor turns) = _
  rw [hopen]
  exact hturns

theorem Decides.of_differ {pair : Pending} (hopen : heap.openPair? pair = none) :
    heap.Decides [pair] false := by
  intro rest
  refine ⟨1, ?_⟩
  change ((heap.openPair? pair).map (· ++ rest)).bind (heap.compareFor 0) = _
  rw [hopen]
  rfl

/-- What is opened lies one level further down. -/
theorem depth_of_openPair? {pair : Pending} {pairs : List Pending}
    (hopen : heap.openPair? pair = some pairs) : ∀ other ∈ pairs, other.depth = pair.depth + 1 := by
  unfold openPair? at hopen
  dsimp only at hopen
  split_ifs at hopen
  · cases hopen
    nofun
  · split at hopen
    · cases hopen
      simp
    · split_ifs at hopen
      cases hopen
      nofun
    · split_ifs at hopen
      cases hopen
      intro other hmem
      obtain ⟨items, -, rfl⟩ := List.mem_map.mp hmem
      rfl
    · split_ifs at hopen
      cases hopen
      nofun
    · cases hopen

/-- A level of a comparison compares what a pair is opened into. -/
theorem equalWithin_succ_eq {pair : Pending} (hdepth : pair.depth ≤ maxEqualDepth) :
    heap.equalWithin (levels + 1) pair.left pair.right =
      match heap.openPair? pair with
      | some pairs => pairs.all fun other ↦ heap.equalWithin levels other.left other.right
      | none => false := by
  rw [equalWithin, openPair?, if_neg (Nat.not_lt.mpr hdepth)]
  cases heap.eql pair.left pair.right with
  | true => rfl
  | false =>
    rw [Bool.false_or, if_neg Bool.false_ne_true]
    dsimp only
    cases heap.get? pair.left with
    | none => rfl
    | some left =>
      cases heap.get? pair.right with
      | none => cases left <;> rfl
      | some right =>
        -- Objects of two kinds differ, and so do two of a kind that has no parts to compare.
        cases left with
        | cons =>
          cases right with
          | cons => simp
          | _ => rfl
        | string textA =>
          cases right with
          | string textB => by_cases htext : textA = textB <;> simp [htext]
          | _ => rfl
        | vector itemsA =>
          cases right with
          | vector itemsB =>
            by_cases hsize : itemsA.size = itemsB.size
            · simp only [hsize, if_true, beq_self_eq_true, Bool.true_and, List.all_map]
              exact Array.all_toList.symm
            · simp [hsize]
          | _ => rfl
        | marker markerA =>
          cases right with
          | marker markerB => by_cases hmarker : markerA = markerB <;> simp [hmarker]
          | _ => rfl
        | _ => cases right <;> rfl

/-- The levels that are left are what is missing to a pair at which nothing is opened any more. -/
theorem decides_equalWithin {pair : Pending} (hdepth : pair.depth + levels = maxEqualDepth + 1) :
    heap.Decides [pair] (heap.equalWithin levels pair.left pair.right) := by
  induction levels generalizing pair with
  | zero =>
    rw [equalWithin]
    cases heql : heap.eql pair.left pair.right with
    | true => exact .of_open (if_pos heql) .nil
    | false =>
      have hdeep : maxEqualDepth < pair.depth := by omega
      exact .of_differ ((if_neg (by simp [heql])).trans (if_pos hdeep))
  | succ levels ih =>
    rw [equalWithin_succ_eq (by omega)]
    cases hopen : heap.openPair? pair with
    | none => exact .of_differ hopen
    | some pairs =>
      refine .of_open hopen (.all fun other hmem ↦ ih ?_)
      rw [depth_of_openPair? hopen other hmem]
      omega

/-- The comparison comes to its end, and its answer is that of `equal`. -/
theorem comparesTo_iff {answer : Bool} : heap.ComparesTo a b answer ↔ heap.equal a b = answer := by
  have hequal : heap.ComparesTo a b (heap.equal a b) := decides_equalWithin (Nat.zero_add _) []
  exact ⟨fun hanswer ↦ hequal.unique hanswer, fun hanswer ↦ hanswer ▸ hequal⟩

/-! ### Reflexive, symmetric, transitive -/

theorem eql_equivalence (heap : Heap) : Equivalence (heap.eql · · = true) where
  refl := heap.eql_self
  symm heql := by
    rcases eql_iff.mp heql with rfl | ⟨x, y, hx, hy, hbits⟩
    · exact heql
    · exact eql_iff.mpr (.inr ⟨y, x, hy, hx, hbits.symm⟩)
  trans hfirst hsecond := by
    rcases eql_iff.mp hfirst with rfl | ⟨x, y, hx, hy, hbits⟩
    · exact hsecond
    · rcases eql_iff.mp hsecond with rfl | ⟨y', z, hy', hz, hbits'⟩
      · exact hfirst
      · cases hy.symm.trans hy'
        exact eql_iff.mpr (.inr ⟨x, z, hx, hz, hbits.trans hbits'⟩)

theorem equalWithin_symm (hequal : heap.equalWithin levels a b = true) :
    heap.equalWithin levels b a = true := by
  induction levels generalizing a b with
  | zero => exact heap.eql_equivalence.symm hequal
  | succ levels ih =>
    obtain ⟨hnode, hparts⟩ := equalWithin_succ_iff.mp hequal
    exact equalWithin_succ_iff.mpr
      ⟨hnode.symm, fun selector x y hx hy ↦ ih (hparts selector y x hy hx)⟩

theorem equalWithin_trans (hfirst : heap.equalWithin levels a b = true)
    (hsecond : heap.equalWithin levels b c = true) : heap.equalWithin levels a c = true := by
  induction levels generalizing a b c with
  | zero => exact heap.eql_equivalence.trans hfirst hsecond
  | succ levels ih =>
    obtain ⟨hnodeAB, hpartsAB⟩ := equalWithin_succ_iff.mp hfirst
    obtain ⟨hnodeBC, hpartsBC⟩ := equalWithin_succ_iff.mp hsecond
    refine equalWithin_succ_iff.mpr ⟨hnodeAB.trans hnodeBC, fun selector x z hx hz ↦ ?_⟩
    obtain ⟨y, hy⟩ := part?_isSome_of_node_eq hnodeAB hx
    exact ih (hpartsAB selector x y hx hy) (hpartsBC selector y z hy hz)

/-- On every heap, whatever goes in circles there, the comparison of any two values comes to an
answer, the one that `equal` gives. `equal` is an equivalence relation, and so is `eql`; each is
coarser than the one before it in the order identity, `eql`, `equal`. -/
theorem equal_equivalence (heap : Heap) :
    (∀ a b answer, heap.ComparesTo a b answer ↔ heap.equal a b = answer) ∧
    Equivalence (heap.equal · · = true) ∧ Equivalence (heap.eql · · = true) ∧
    (∀ a b, a = b → heap.eql a b = true) ∧
    (∀ a b, heap.eql a b = true → heap.equal a b = true) :=
  ⟨fun _ _ _ ↦ comparesTo_iff,
    ⟨heap.equalWithin_self _, equalWithin_symm, equalWithin_trans⟩, heap.eql_equivalence,
    fun a _ hsame ↦ hsame ▸ heap.eql_self a, fun _ _ heql ↦ equalWithin_of_eql heql _⟩

/-- Two conses that hold 1 and go on with themselves. Each is `equal` to itself. The comparison of
the one with the other finds no difference, but it ends where the levels do, with the answer no. -/
theorem equal_equivalence_circles :
    let heap : Heap := { objects := #[.cons (.fixnum 1) (.object 0), .cons (.fixnum 1) (.object 1)]
                         threshold := 1 }
    heap.eql (.object 0) (.object 0) = true ∧ heap.equal (.object 0) (.object 0) = true ∧
      heap.ComparesTo (.object 0) (.object 1) false ∧
      heap.ComparesTo (.object 1) (.object 0) false := by
  intro heap
  obtain ⟨hcompares, hequivalence, -, hsame, heql⟩ := equal_equivalence heap
  have hself := hsame (.object 0) (.object 0) rfl
  have hround (levels : Nat) : heap.equalWithin levels (.object 0) (.object 1) = false := by
    induction levels with
    | zero => rfl
    | succ levels ih =>
      change (heap.equalWithin levels (.fixnum 1) (.fixnum 1) &&
        heap.equalWithin levels (.object 0) (.object 1)) = false
      rw [ih, Bool.and_false]
  have hother : heap.equal (.object 1) (.object 0) = false :=
    Bool.eq_false_iff.mpr fun hequal ↦
      Bool.eq_false_iff.mp (hround _) (hequivalence.symm hequal)
  exact ⟨hself, heql _ _ hself, (hcompares _ _ _).mpr (hround _), (hcompares _ _ _).mpr hother⟩

end Heap

end LispMachine
