import Mathlib.Algebra.Order.BigOperators.Group.List
import Mathlib.Tactic

/-!
# Segments of given lengths

Numbers from 0 on are divided into consecutive segments whose lengths are the entries of a list.
Every number below the sum of the lengths is in exactly one of them.
-/

/-- Where a segment starts. -/
def sumBefore (lengths : List Nat) (index : Nat) : Nat := (lengths.take index).sum

/-- A point is in a segment. -/
def InSegment (lengths : List Nat) (point index : Nat) : Prop :=
  sumBefore lengths index ≤ point ∧ point < sumBefore lengths (index + 1)

variable {index other point first : Nat} {lengths : List Nat}

@[simp] theorem sumBefore_zero (lengths : List Nat) : sumBefore lengths 0 = 0 := rfl

@[simp] theorem sumBefore_cons_succ (first : Nat) (lengths : List Nat) (index : Nat) :
    sumBefore (first :: lengths) (index + 1) = first + sumBefore lengths index := by
  rw [sumBefore, List.take_succ_cons, List.sum_cons]
  rfl

theorem sumBefore_mono (lengths : List Nat) (le : index ≤ other) :
    sumBefore lengths index ≤ sumBefore lengths other :=
  List.Sublist.sum_le_sum ((List.take_prefix_take_left le).sublist) fun _ _ => Nat.zero_le _

theorem InSegment.unique (first : InSegment lengths point index)
    (second : InSegment lengths point other) : index = other := by
  rcases Nat.lt_trichotomy index other with before | same | behind
  · have := sumBefore_mono lengths (show index + 1 ≤ other from before)
    have := first.2
    have := second.1
    omega
  · exact same
  · have := sumBefore_mono lengths (show other + 1 ≤ index from behind)
    have := first.1
    have := second.2
    omega

theorem InSegment.head (lengths : List Nat) (less : point < first) :
    InSegment (first :: lengths) point 0 := by
  rw [InSegment, sumBefore_zero, sumBefore_cons_succ]
  omega

theorem InSegment.tail (behind : first ≤ point) (inside : InSegment lengths (point - first) index) :
    InSegment (first :: lengths) point (index + 1) := by
  obtain ⟨le, less⟩ := inside
  rw [InSegment, sumBefore_cons_succ, sumBefore_cons_succ]
  omega
