import Mathlib.Tactic

/-!
# Order of an array-based binary heap

Positions run from 1 to `count`, and the parent of a position is its half.  While an entry moves,
the order holds except around its position: `RisesAt` and `SinksAt` say what still holds then.
-/

namespace BinaryHeap

variable {α : Type*} [LinearOrder α]

/-- No position is below its parent. -/
def Ordered (key : Nat → α) (count : Nat) : Prop :=
  ∀ pos, 2 ≤ pos → pos ≤ count → key (pos / 2) ≤ key pos

/-- The order holds but for `hole` and its parent, and the sons of `hole` are not below its
parent. -/
structure RisesAt (key : Nat → α) (count hole : Nat) : Prop where
  elsewhere : ∀ pos, 2 ≤ pos → pos ≤ count → pos ≠ hole → key (pos / 2) ≤ key pos
  across : 2 ≤ hole → ∀ son, son / 2 = hole → son ≤ count → key (hole / 2) ≤ key son

/-- The order holds but for `hole` and its sons, and the sons of `hole` are not below its parent. -/
structure SinksAt (key : Nat → α) (count hole : Nat) : Prop where
  elsewhere : ∀ pos, 2 ≤ pos → pos ≤ count → pos / 2 ≠ hole → key (pos / 2) ≤ key pos
  across : 2 ≤ hole → ∀ son, son / 2 = hole → son ≤ count → key (hole / 2) ≤ key son

/-- The values with those at two positions exchanged. -/
def exchange (key : Nat → α) (first second pos : Nat) : α :=
  if pos = first then key second else if pos = second then key first else key pos

variable {pos hole : Nat} {other : Nat → α}

omit [LinearOrder α] in
@[simp] theorem exchange_first (key : Nat → α) (first second : Nat) :
    exchange key first second first = key second := if_pos rfl

omit [LinearOrder α] in
@[simp] theorem exchange_second (key : Nat → α) (first second : Nat) :
    exchange key first second second = key first := by
  unfold exchange
  split
  · rw [‹second = first›]
  · exact if_pos rfl

omit [LinearOrder α] in
theorem exchange_of_ne (key : Nat → α) {first second : Nat} (ne_first : pos ≠ first)
    (ne_second : pos ≠ second) : exchange key first second pos = key pos := by
  rw [exchange, if_neg ne_first, if_neg ne_second]

section Order

variable {key : Nat → α} {count : Nat}

theorem Ordered.root_le (ordered : Ordered key count) (pos_pos : 1 ≤ pos) (pos_le : pos ≤ count) :
    key 1 ≤ key pos := by
  induction pos using Nat.strongRecOn with
  | ind pos induction =>
      by_cases root : pos = 1
      · rw [root]
      · exact (induction (pos / 2) (by omega) (by omega) (by omega)).trans
          (ordered pos (by omega) pos_le)

theorem Ordered.congr (ordered : Ordered key count)
    (same : ∀ pos, 1 ≤ pos → pos ≤ count → other pos = key pos) : Ordered other count := by
  intro pos pos_ge pos_le
  rw [same pos (by omega) pos_le, same (pos / 2) (by omega) (by omega)]
  exact ordered pos pos_ge pos_le

/-! ## Rising -/

theorem Ordered.risesAt_succ (ordered : Ordered key count)
    (same : ∀ pos, 1 ≤ pos → pos ≤ count → other pos = key pos) :
    RisesAt other (count + 1) (count + 1) := by
  constructor
  · intro pos pos_ge pos_le pos_ne
    exact ordered.congr same pos pos_ge (by omega)
  · intro hole_ge son son_half son_le
    omega

theorem RisesAt.exchange (rises : RisesAt key count hole) (hole_ge : 2 ≤ hole)
    (hole_le : hole ≤ count) (below : key hole < key (hole / 2)) :
    RisesAt (exchange key hole (hole / 2)) count (hole / 2) := by
  constructor
  · intro pos pos_ge pos_le pos_ne
    by_cases at_hole : pos = hole
    · subst at_hole
      rw [exchange_first, exchange_second]
      exact below.le
    · rw [exchange_of_ne key at_hole pos_ne]
      by_cases under_hole : pos / 2 = hole
      · rw [under_hole, exchange_first]
        exact rises.across hole_ge pos under_hole pos_le
      · by_cases under_parent : pos / 2 = hole / 2
        · rw [under_parent, exchange_second]
          exact below.le.trans (under_parent ▸ rises.elsewhere pos pos_ge pos_le at_hole)
        · rw [exchange_of_ne key under_hole under_parent]
          exact rises.elsewhere pos pos_ge pos_le at_hole
  · intro parent_ge son son_half son_le
    have upper : key (hole / 2 / 2) ≤ key (hole / 2) :=
      rises.elsewhere (hole / 2) parent_ge (by omega) (by omega)
    rw [exchange_of_ne key (show hole / 2 / 2 ≠ hole by omega)
      (show hole / 2 / 2 ≠ hole / 2 by omega)]
    by_cases at_hole : son = hole
    · rw [at_hole, exchange_first]
      exact upper
    · rw [exchange_of_ne key at_hole (by omega)]
      exact upper.trans (son_half ▸ rises.elsewhere son (by omega) son_le at_hole)

theorem RisesAt.ordered (rises : RisesAt key count hole)
    (stops : 2 ≤ hole → key (hole / 2) ≤ key hole) : Ordered key count := by
  intro pos pos_ge pos_le
  by_cases at_hole : pos = hole
  · subst at_hole
    exact stops pos_ge
  · exact rises.elsewhere pos pos_ge pos_le at_hole

/-! ## Sinking -/

/-- The last entry in place of another may be above its new sons, if it is not below its new
parent. -/
theorem Ordered.sinksAt_of_replace (ordered : Ordered key count) (hole_pos : 1 ≤ hole)
    (moved : hole < count → other hole = key count)
    (same : ∀ pos, 1 ≤ pos → pos < count → pos ≠ hole → other pos = key pos)
    (parent_le : 2 ≤ hole → hole < count → key (hole / 2) ≤ key count) :
    SinksAt other (count - 1) hole := by
  constructor
  · intro pos pos_ge pos_le pos_half
    by_cases at_hole : pos = hole
    · subst at_hole
      rw [moved (by omega), same (pos / 2) (by omega) (by omega) (by omega)]
      exact parent_le pos_ge (by omega)
    · rw [same pos (by omega) (by omega) at_hole, same (pos / 2) (by omega) (by omega) pos_half]
      exact ordered pos pos_ge (by omega)
  · intro hole_ge son son_half son_le
    rw [same (hole / 2) (by omega) (by omega) (by omega), same son (by omega) (by omega) (by omega)]
    exact (ordered hole hole_ge (by omega)).trans
      (son_half ▸ ordered son (by omega) (by omega))

theorem SinksAt.exchange {son : Nat} (sinks : SinksAt key count hole) (hole_pos : 1 ≤ hole)
    (son_half : son / 2 = hole) (son_le : son ≤ count) (above : key son < key hole)
    (least : ∀ other, other / 2 = hole → other ≤ count → key son ≤ key other) :
    SinksAt (exchange key hole son) count son := by
  constructor
  · intro pos pos_ge pos_le pos_half
    by_cases at_hole : pos = hole
    · subst at_hole
      rw [exchange_first, exchange_of_ne key (by omega) (by omega)]
      exact sinks.across pos_ge son son_half son_le
    · by_cases under_hole : pos / 2 = hole
      · rw [under_hole, exchange_first]
        by_cases at_son : pos = son
        · rw [at_son, exchange_second]
          exact above.le
        · rw [exchange_of_ne key at_hole at_son]
          exact least pos under_hole pos_le
      · rw [exchange_of_ne key at_hole (by rintro rfl; exact under_hole son_half),
          exchange_of_ne key under_hole pos_half]
        exact sinks.elsewhere pos pos_ge pos_le under_hole
  · intro son_ge other other_half other_le
    rw [son_half, exchange_first, exchange_of_ne key (by omega) (by omega)]
    exact other_half ▸ sinks.elsewhere other (by omega) other_le (by omega)

theorem SinksAt.ordered (sinks : SinksAt key count hole)
    (stops : ∀ son, 2 ≤ son → son / 2 = hole → son ≤ count → key hole ≤ key son) :
    Ordered key count := by
  intro pos pos_ge pos_le
  by_cases under_hole : pos / 2 = hole
  · rw [under_hole]
    exact stops pos pos_ge under_hole pos_le
  · exact sinks.elsewhere pos pos_ge pos_le under_hole

end Order

end BinaryHeap
