import LispMachine.Heap.Equality
import LispMachine.Proofs.Store.Sound

/-!
What values are built of. Seen from a value, the heap unfolds into a tree: at each position, which
is a way along first parts, second parts and items of vectors, stands a cons, a vector or an atom
(`Heap.unfolding`). A circular structure unfolds into a tree that does not end, so nothing here asks
whether a value is circular. One level of the comparison of two values is described once, by
`equalWithin_succ_iff`: what stands at the two values is the same, and their parts are compared with
one level less. From it, by induction on the levels, follows what a comparison of a number of levels
finds out (`equalWithin_iff`).
-/

set_option autoImplicit false

namespace LispMachine

namespace Heap

variable {heap : Heap} {a b x y : Value} {levels : Nat}

/-! ### Parts -/

/-- Which part of a cons or of a vector is meant. -/
inductive Selector where
  | car
  | cdr
  | item (place : Nat)
  deriving DecidableEq

/-- What a value shows of itself without its parts: that it is a cons, that it is a vector of some
size, or an atom. Floats are told apart by their bits, strings and markers by their contents, and
all else by identity. -/
inductive Node where
  | cons
  | vector (size : Nat)
  | float (bits : UInt64)
  | string (text : String)
  | marker (marker : Marker)
  | same (value : Value)

def node (heap : Heap) (value : Value) : Node :=
  match heap.get? value with
  | some (.cons _ _) => .cons
  | some (.vector items) => .vector items.size
  | some (.float x) => .float x.bits
  | some (.string text) => .string text
  | some (.marker marker) => .marker marker
  | _ => .same value

def part? (heap : Heap) (value : Value) : Selector → Option Value
  | .car => (heap.cons? value).map Prod.fst
  | .cdr => (heap.cons? value).map Prod.snd
  | .item place => (heap.vector? value).bind (·[place]?)

/-- The parts that two values have in the same places are related. -/
def Partwise (heap : Heap) (related : Value → Value → Prop) (a b : Value) : Prop :=
  ∀ selector x y, heap.part? a selector = some x → heap.part? b selector = some y → related x y

theorem node_of_cons {car cdr : Value} (hcons : heap.get? a = some (.cons car cdr)) :
    heap.node a = .cons := by
  unfold node
  rw [hcons]

theorem node_eq_cons : heap.node a = .cons ↔ ∃ car cdr, heap.get? a = some (.cons car cdr) := by
  unfold node
  split <;> simp_all

theorem node_eq_vector {size : Nat} :
    heap.node a = .vector size ↔
      ∃ items, heap.get? a = some (.vector items) ∧ items.size = size := by
  unfold node
  split <;> simp_all

theorem node_eq_float {bits : UInt64} :
    heap.node a = .float bits ↔ ∃ x, heap.get? a = some (.float x) ∧ x.bits = bits := by
  unfold node
  split <;> simp_all

theorem node_eq_string {text : String} :
    heap.node a = .string text ↔ heap.get? a = some (.string text) := by
  unfold node
  split <;> simp_all

theorem node_eq_marker {marker : Marker} :
    heap.node a = .marker marker ↔ heap.get? a = some (.marker marker) := by
  unfold node
  split <;> simp_all

/-- What is told apart by identity is the same if it looks the same. -/
theorem eq_of_node_eq_same {value : Value} (hnode : heap.node a = .same value) : a = value := by
  unfold node at hnode
  split at hnode <;> simp_all

section Parts

variable {related : Value → Value → Prop} {selector : Selector}

theorem part?_of_cons {car cdr : Value} (hcons : heap.get? a = some (.cons car cdr)) :
    heap.part? a selector = some x ↔ (selector = .car ∧ x = car) ∨ (selector = .cdr ∧ x = cdr) := by
  have hvector : heap.vector? a = none := by simp [vector?, hcons]
  cases selector <;> simp [part?, cons?_eq_some.mpr hcons, hvector, eq_comm]

theorem part?_of_vector {items : Array Value} (hvector : heap.get? a = some (.vector items)) :
    heap.part? a selector = some x ↔ ∃ place : Nat, selector = .item place ∧
      items[place]? = some x := by
  have hcons : heap.cons? a = none := by simp [cons?, hvector]
  cases selector <;> simp [part?, hcons, vector?_eq_some.mpr hvector]

/-- A value whose parts are asked for is a cons or a vector. -/
theorem part?_cases (hpart : heap.part? a selector = some x) :
    (∃ car cdr, heap.get? a = some (.cons car cdr)) ∨
      ∃ items, heap.get? a = some (.vector items) := by
  cases selector with
  | car | cdr =>
    obtain ⟨⟨car, cdr⟩, hcons, -⟩ := Option.map_eq_some_iff.mp hpart
    exact .inl ⟨car, cdr, cons?_eq_some.mp hcons⟩
  | item place =>
    obtain ⟨items, hitems, -⟩ := Option.bind_eq_some_iff.mp hpart
    exact .inr ⟨items, vector?_eq_some.mp hitems⟩

theorem partwise_of_atom (hcons : heap.node a ≠ .cons)
    (hvector : ∀ size, heap.node a ≠ .vector size) : heap.Partwise related a b := by
  intro selector x y hx _
  rcases part?_cases hx with ⟨car, cdr, hobject⟩ | ⟨items, hobject⟩
  · exact absurd (node_of_cons hobject) hcons
  · exact absurd (node_eq_vector.mpr ⟨items, hobject, rfl⟩) (hvector items.size)

theorem partwise_cons {carA cdrA carB cdrB : Value} (hconsA : heap.get? a = some (.cons carA cdrA))
    (hconsB : heap.get? b = some (.cons carB cdrB)) :
    heap.Partwise related a b ↔ related carA carB ∧ related cdrA cdrB := by
  constructor
  · intro hparts
    exact ⟨hparts .car _ _ ((part?_of_cons hconsA).mpr (.inl ⟨rfl, rfl⟩))
        ((part?_of_cons hconsB).mpr (.inl ⟨rfl, rfl⟩)),
      hparts .cdr _ _ ((part?_of_cons hconsA).mpr (.inr ⟨rfl, rfl⟩))
        ((part?_of_cons hconsB).mpr (.inr ⟨rfl, rfl⟩))⟩
  · rintro ⟨hcar, hcdr⟩ selector x y hx hy
    rw [part?_of_cons hconsA] at hx
    rw [part?_of_cons hconsB] at hy
    rcases hx with ⟨rfl, rfl⟩ | ⟨rfl, rfl⟩ <;> simp_all

theorem partwise_vector {itemsA itemsB : Array Value}
    (hvectorA : heap.get? a = some (.vector itemsA))
    (hvectorB : heap.get? b = some (.vector itemsB)) :
    heap.Partwise related a b ↔
      ∀ (place : Nat) (x y : Value),
        itemsA[place]? = some x → itemsB[place]? = some y → related x y := by
  constructor
  · intro hparts place x y hx hy
    exact hparts (.item place) x y ((part?_of_vector hvectorA).mpr ⟨place, rfl, hx⟩)
      ((part?_of_vector hvectorB).mpr ⟨place, rfl, hy⟩)
  · intro hitems selector x y hx hy
    obtain ⟨place, rfl, hitemA⟩ := (part?_of_vector hvectorA).mp hx
    obtain ⟨other, hsame, hitemB⟩ := (part?_of_vector hvectorB).mp hy
    cases hsame
    exact hitems place x y hitemA hitemB

end Parts

/-! ### One level of a comparison -/

theorem float?_eq_some {x : Double} :
    heap.float? a = some x ↔ heap.get? a = some (.float x) := by
  unfold float?
  split <;> simp_all

theorem eql_iff : heap.eql a b = true ↔ a = b ∨ ∃ x y,
    heap.get? a = some (.float x) ∧ heap.get? b = some (.float y) ∧ x.bits = y.bits := by
  unfold eql
  rw [Bool.or_eq_true, beq_iff_eq]
  refine or_congr_right ?_
  constructor
  · intro hbits
    split at hbits
    · next x y hx hy =>
      exact ⟨x, y, float?_eq_some.mp hx, float?_eq_some.mp hy, beq_iff_eq.mp hbits⟩
    · cases hbits
  · rintro ⟨x, y, hx, hy, hbits⟩
    rw [float?_eq_some.mpr hx, float?_eq_some.mpr hy]
    exact beq_iff_eq.mpr hbits

theorem eql_self (heap : Heap) (a : Value) : heap.eql a a = true := eql_iff.mpr (.inl rfl)

theorem node_eq_of_eql (heql : heap.eql a b = true) : heap.node a = heap.node b := by
  rcases eql_iff.mp heql with rfl | ⟨x, y, hx, hy, hbits⟩
  · rfl
  · rw [node_eq_float.mpr ⟨x, hx, hbits⟩, node_eq_float.mpr ⟨y, hy, rfl⟩]

/-- Values that are `eql` have no parts other than common ones. -/
theorem partwise_of_eql {related : Value → Value → Prop} (heql : heap.eql a b = true)
    (hself : ∀ x, related x x) : heap.Partwise related a b := by
  intro selector x y hx hy
  rcases eql_iff.mp heql with rfl | ⟨z, -, hz, -, -⟩
  · cases hx.symm.trans hy
    exact hself x
  · have hfloat : heap.node a = .float z.bits := node_eq_float.mpr ⟨z, hz, rfl⟩
    exact partwise_of_atom (by simp [hfloat]) (by simp [hfloat]) selector x y hx hy

theorem equalWithin_of_eql (heql : heap.eql a b = true) (levels : Nat) :
    heap.equalWithin levels a b = true := by
  cases levels with
  | zero => exact heql
  | succ levels =>
    unfold equalWithin
    rw [heql, Bool.true_or]

theorem equalWithin_self (heap : Heap) (levels : Nat) (a : Value) :
    heap.equalWithin levels a a = true :=
  equalWithin_of_eql (heap.eql_self a) levels

theorem sameItems_iff (test : Value → Value → Bool) (itemsA itemsB : Array Value) :
    (itemsA.size == itemsB.size && (itemsA.zip itemsB).all fun (itemA, itemB) ↦ test itemA itemB) =
        true ↔
      itemsA.size = itemsB.size ∧ ∀ (place : Nat) (x y : Value),
        itemsA[place]? = some x → itemsB[place]? = some y → test x y = true := by
  rw [Bool.and_eq_true, beq_iff_eq]
  refine and_congr_right fun hsize ↦ ?_
  rw [Array.all_eq_true]
  constructor
  · intro hall place x y hx hy
    obtain ⟨hplaceA, rfl⟩ := Array.getElem?_eq_some_iff.mp hx
    obtain ⟨hplaceB, rfl⟩ := Array.getElem?_eq_some_iff.mp hy
    have hplace : place < (itemsA.zip itemsB).size := by
      rw [Array.size_zip]
      exact Nat.lt_min.mpr ⟨hplaceA, hplaceB⟩
    simpa using hall place hplace
  · intro hitems place hplace
    rw [Array.size_zip] at hplace
    have hboth := Nat.lt_min.mp hplace
    simpa using hitems place _ _ (Array.getElem?_eq_getElem hboth.1)
      (Array.getElem?_eq_getElem hboth.2)

/-- A comparison looks at the two values and compares their parts with one level less. That values
which are `eql` are not looked into makes no difference, because their parts are the same. -/
theorem equalWithin_succ_iff :
    heap.equalWithin (levels + 1) a b = true ↔
      heap.node a = heap.node b ∧ heap.Partwise (heap.equalWithin levels · · = true) a b := by
  constructor
  · intro hequal
    rw [equalWithin, Bool.or_eq_true] at hequal
    rcases hequal with heql | halike
    · exact ⟨node_eq_of_eql heql, partwise_of_eql heql (heap.equalWithin_self levels)⟩
    · split at halike
      · next hconsA hconsB =>
        rw [Bool.and_eq_true] at halike
        exact ⟨by rw [node_of_cons hconsA, node_of_cons hconsB],
          (partwise_cons hconsA hconsB).mpr halike⟩
      · next textA textB hstringA hstringB =>
        rw [beq_iff_eq] at halike
        have hnode := node_eq_string.mpr hstringA
        exact ⟨hnode.trans (node_eq_string.mpr (halike ▸ hstringB)).symm,
          partwise_of_atom (by simp [hnode]) (by simp [hnode])⟩
      · next itemsA itemsB hvectorA hvectorB =>
        obtain ⟨hsize, hitems⟩ := (sameItems_iff _ itemsA itemsB).mp halike
        exact ⟨(node_eq_vector.mpr ⟨itemsA, hvectorA, hsize⟩).trans
          (node_eq_vector.mpr ⟨itemsB, hvectorB, rfl⟩).symm,
          (partwise_vector hvectorA hvectorB).mpr hitems⟩
      · next markerA markerB hmarkerA hmarkerB =>
        rw [beq_iff_eq] at halike
        have hnode := node_eq_marker.mpr hmarkerA
        exact ⟨hnode.trans (node_eq_marker.mpr (halike ▸ hmarkerB)).symm,
          partwise_of_atom (by simp [hnode]) (by simp [hnode])⟩
      · cases halike
  · rintro ⟨hnode, hparts⟩
    rw [equalWithin, Bool.or_eq_true]
    cases hnodeA : heap.node a with
    | cons =>
      obtain ⟨carA, cdrA, hconsA⟩ := node_eq_cons.mp hnodeA
      obtain ⟨carB, cdrB, hconsB⟩ := node_eq_cons.mp (hnode ▸ hnodeA)
      rw [hconsA, hconsB]
      exact .inr (Bool.and_eq_true_iff.mpr ((partwise_cons hconsA hconsB).mp hparts))
    | vector size =>
      obtain ⟨itemsA, hvectorA, rfl⟩ := node_eq_vector.mp hnodeA
      obtain ⟨itemsB, hvectorB, hsize⟩ := node_eq_vector.mp (hnode ▸ hnodeA)
      rw [hvectorA, hvectorB]
      exact .inr ((sameItems_iff _ itemsA itemsB).mpr
        ⟨hsize.symm, (partwise_vector hvectorA hvectorB).mp hparts⟩)
    | float bits =>
      obtain ⟨x, hx, rfl⟩ := node_eq_float.mp hnodeA
      obtain ⟨y, hy, hbits⟩ := node_eq_float.mp (hnode ▸ hnodeA)
      exact .inl (eql_iff.mpr (.inr ⟨x, y, hx, hy, hbits.symm⟩))
    | string text =>
      rw [node_eq_string.mp hnodeA, node_eq_string.mp (hnode ▸ hnodeA)]
      exact .inr (beq_self_eq_true text)
    | marker marker =>
      rw [node_eq_marker.mp hnodeA, node_eq_marker.mp (hnode ▸ hnodeA)]
      exact .inr (beq_self_eq_true marker)
    | same value =>
      obtain rfl := eq_of_node_eq_same hnodeA
      obtain rfl := eq_of_node_eq_same (hnode ▸ hnodeA)
      exact .inl (heap.eql_self _)

/-! ### Unfolding a value -/

/-- The part of a value at a position: the way from the value down to the part. -/
def partAt? (heap : Heap) : List Selector → Value → Option Value
  | [], value => some value
  | selector :: position, value => (heap.part? value selector).bind (heap.partAt? position)

/-- The tree that a value unfolds into: what stands at every position. -/
def unfolding (heap : Heap) (value : Value) (position : List Selector) : Option Node :=
  (heap.partAt? position value).map heap.node

theorem unfolding_nil (heap : Heap) (a : Value) : heap.unfolding a [] = some (heap.node a) := rfl

theorem unfolding_cons (heap : Heap) (a : Value) (selector : Selector) (position : List Selector) :
    heap.unfolding a (selector :: position) =
      (heap.part? a selector).bind (heap.unfolding · position) := by
  unfold unfolding
  rw [partAt?]
  cases heap.part? a selector <;> rfl

/-- Which parts there are shows at the value itself. -/
theorem part?_isSome_of_node_eq (hnode : heap.node a = heap.node b) {selector : Selector}
    (hpart : heap.part? a selector = some x) : ∃ y, heap.part? b selector = some y := by
  rcases part?_cases hpart with ⟨carA, cdrA, hconsA⟩ | ⟨itemsA, hvectorA⟩
  · obtain ⟨carB, cdrB, hconsB⟩ := node_eq_cons.mp (hnode ▸ node_of_cons hconsA)
    rcases (part?_of_cons hconsA).mp hpart with ⟨rfl, -⟩ | ⟨rfl, -⟩
    · exact ⟨carB, (part?_of_cons hconsB).mpr (.inl ⟨rfl, rfl⟩)⟩
    · exact ⟨cdrB, (part?_of_cons hconsB).mpr (.inr ⟨rfl, rfl⟩)⟩
  · have hnodeA : heap.node a = .vector itemsA.size := node_eq_vector.mpr ⟨itemsA, hvectorA, rfl⟩
    obtain ⟨itemsB, hvectorB, hsize⟩ := node_eq_vector.mp (hnode ▸ hnodeA)
    obtain ⟨place, rfl, hplace⟩ := (part?_of_vector hvectorA).mp hpart
    have hless : place < itemsB.size := hsize ▸ (Array.getElem?_eq_some_iff.mp hplace).1
    exact ⟨itemsB[place], (part?_of_vector hvectorB).mpr
      ⟨place, rfl, Array.getElem?_eq_getElem hless⟩⟩

/-- Two values unfold into the same tree if they look the same and their parts do so. -/
theorem unfolding_eq_iff : heap.unfolding a = heap.unfolding b ↔
    heap.node a = heap.node b ∧ heap.Partwise (heap.unfolding · = heap.unfolding ·) a b := by
  constructor
  · intro hsame
    refine ⟨Option.some_inj.mp (congrFun hsame []), fun selector x y hx hy ↦ ?_⟩
    funext position
    have hbelow := congrFun hsame (selector :: position)
    rwa [unfolding_cons, unfolding_cons, hx, hy] at hbelow
  · rintro ⟨hnode, hparts⟩
    funext position
    cases position with
    | nil => rw [unfolding_nil, unfolding_nil, hnode]
    | cons selector position =>
      rw [unfolding_cons, unfolding_cons]
      cases hx : heap.part? a selector with
      | some x =>
        obtain ⟨y, hy⟩ := part?_isSome_of_node_eq hnode hx
        rw [hy]
        exact congrFun (hparts selector x y hx hy) position
      | none =>
        cases hy : heap.part? b selector with
        | none => rfl
        | some y =>
          obtain ⟨x, hx'⟩ := part?_isSome_of_node_eq hnode.symm hy
          cases hx.symm.trans hx'

theorem unfolding_eq_of_eql (heql : heap.eql a b = true) : heap.unfolding a = heap.unfolding b :=
  unfolding_eq_iff.mpr ⟨node_eq_of_eql heql, partwise_of_eql heql fun _ ↦ rfl⟩

/-- A comparison of some levels finds that two values unfold into the same tree and that what is
that many levels below them is `eql`. -/
theorem equalWithin_iff : heap.equalWithin levels a b = true ↔
    heap.unfolding a = heap.unfolding b ∧
      ∀ position, position.length = levels → ∀ x y, heap.partAt? position a = some x →
        heap.partAt? position b = some y → heap.eql x y = true := by
  induction levels generalizing a b with
  | zero =>
    constructor
    · intro heql
      refine ⟨unfolding_eq_of_eql heql, fun position hnone x y hx hy ↦ ?_⟩
      obtain rfl := List.eq_nil_of_length_eq_zero hnone
      cases hx
      cases hy
      exact heql
    · rintro ⟨-, hdeep⟩
      exact hdeep [] rfl a b rfl rfl
  | succ levels ih =>
    rw [equalWithin_succ_iff, unfolding_eq_iff]
    constructor
    · rintro ⟨hnode, hparts⟩
      refine ⟨⟨hnode, fun selector x y hx hy ↦ (ih.mp (hparts selector x y hx hy)).1⟩, ?_⟩
      intro position hlength x y hx hy
      cases position with
      | nil => cases hlength
      | cons selector position =>
        obtain ⟨partA, hpartA, hbelowA⟩ := Option.bind_eq_some_iff.mp hx
        obtain ⟨partB, hpartB, hbelowB⟩ := Option.bind_eq_some_iff.mp hy
        exact (ih.mp (hparts selector partA partB hpartA hpartB)).2 position
          (Nat.succ.inj hlength) x y hbelowA hbelowB
    · rintro ⟨⟨hnode, hparts⟩, hdeep⟩
      refine ⟨hnode, fun selector partA partB hpartA hpartB ↦ ih.mpr ⟨?_, ?_⟩⟩
      · exact hparts selector partA partB hpartA hpartB
      · intro position hlength x y hx hy
        refine hdeep (selector :: position) (congrArg Nat.succ hlength) x y ?_ ?_
        · exact Option.bind_eq_some_iff.mpr ⟨partA, hpartA, hx⟩
        · exact Option.bind_eq_some_iff.mpr ⟨partB, hpartB, hy⟩

end Heap

end LispMachine
