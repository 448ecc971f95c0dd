import Mathlib.Tactic

/-!
# Gathered writes

A write that takes its elements from several buffers, one after the other, and accepts only some of
them.  The buffers have owners; the share of an owner is what the write accepts of its buffers.
-/

namespace Gather

variable {ι α : Type*} [DecidableEq ι]

/-- The number of all elements. -/
def total (buffers : List (ι × List α)) : Nat := (buffers.map fun buffer => buffer.2.length).sum

/-- What the first `count` elements have from the buffers of an owner. -/
def share (owner : ι) : List (ι × List α) → (count : Nat) → List α
  | [], _ => []
  | (other, data) :: buffers, count =>
      (if other = owner then data.take count else []) ++ share owner buffers (count - data.length)

variable {owner : ι} {buffers : List (ι × List α)}

omit [DecidableEq ι] in
theorem total_cons (buffer : ι × List α) (buffers : List (ι × List α)) :
    total (buffer :: buffers) = buffer.2.length + total buffers := List.sum_cons

omit [DecidableEq ι] in
theorem total_append (front back : List (ι × List α)) :
    total (front ++ back) = total front + total back := by
  rw [total, List.map_append, List.sum_append]
  rfl

@[simp] theorem share_zero (owner : ι) (buffers : List (ι × List α)) :
    share owner buffers 0 = [] := by
  induction buffers with
  | nil => rfl
  | cons buffer buffers induction =>
      rw [share, Nat.zero_sub, induction, List.take_zero, ite_self, List.append_nil]

theorem share_of_not_mem (not_mem : ∀ buffer ∈ buffers, buffer.1 ≠ owner) (count : Nat) :
    share owner buffers count = [] := by
  induction buffers generalizing count with
  | nil => rfl
  | cons buffer buffers induction =>
      rw [share, if_neg (not_mem buffer List.mem_cons_self), List.nil_append,
        induction fun other member => not_mem other (List.mem_cons_of_mem buffer member)]

theorem share_append (owner : ι) (front back : List (ι × List α)) (count : Nat) :
    share owner (front ++ back) count =
      share owner front count ++ share owner back (count - total front) := by
  induction front generalizing count with
  | nil => rfl
  | cons buffer front induction =>
      rw [List.cons_append, share, share, induction, total_cons, List.append_assoc, Nat.sub_sub]

end Gather
