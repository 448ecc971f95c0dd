import Spp.Lib.Circular

/-!
# Rings of contiguous segments

A ring of `size` cells in which every block takes consecutive cells.  A block that would reach the
end of the ring is placed at address zero, and the cells from its position to the end are skipped.
For a list of blocks, `stop` is the position after them and `span` the number of cells they take
with what they skip, so that `stop` is `span` cells after the start on the circle.
-/

namespace SegmentRing

open CircularBuffer

/-- Where a block of `nr` cells is placed from the position `pos` on. -/
def place (size pos nr : Nat) : Nat := if pos + nr < size then pos else 0

/-- Number of cells a block takes from the position `pos` on, with the cells it skips. -/
def extent (size pos nr : Nat) : Nat := if pos + nr < size then nr else size - pos + nr

/-- Where the last segment ends. -/
def stop (size : Nat) : Nat → List Nat → Nat
  | pos, [] => pos
  | pos, nr :: rest => stop size (place size pos nr + nr) rest

/-- What the segments take, gaps too. -/
def span (size : Nat) : Nat → List Nat → Nat
  | _, [] => 0
  | pos, nr :: rest => extent size pos nr + span size (place size pos nr + nr) rest

/-- A block is neither empty nor as long as the ring. -/
def Proper (size nr : Nat) : Prop := 0 < nr ∧ nr < size

variable {size pos nr : Nat} {blocks : List Nat}

theorem place_add_lt (proper : Proper size nr) : place size pos nr + nr < size := by
  obtain ⟨_, nr_lt⟩ := proper
  unfold place
  split <;> omega

theorem advance_extent (pos_lt : pos < size) (proper : Proper size nr) :
    advance size pos (extent size pos nr) = place size pos nr + nr := by
  obtain ⟨nr_pos, nr_lt⟩ := proper
  unfold advance extent place
  split <;> split <;> omega

theorem exists_wrap_of_place {index : Nat} (pos_lt : pos < size) (index_lt : index < nr) :
    ∃ offset < extent size pos nr, place size pos nr + index = wrap size pos offset := by
  unfold place extent wrap
  by_cases fits : pos + nr < size
  · refine ⟨index, ?_, ?_⟩
    · rw [if_pos fits]
      exact index_lt
    · rw [if_pos fits, if_pos (by omega)]
  · refine ⟨size - pos + index, ?_, ?_⟩
    · rw [if_neg fits]
      omega
    · rw [if_neg fits, if_neg (by omega)]
      omega

theorem stop_lt (pos_lt : pos < size) (proper : ∀ nr ∈ blocks, Proper size nr) :
    stop size pos blocks < size := by
  induction blocks generalizing pos with
  | nil => exact pos_lt
  | cons nr rest induction =>
      exact induction (place_add_lt (proper nr (by simp)))
        (fun other member => proper other (List.mem_cons_of_mem _ member))

theorem advance_span (pos_lt : pos < size) (proper : ∀ nr ∈ blocks, Proper size nr)
    (room : span size pos blocks < size) :
    advance size pos (span size pos blocks) = stop size pos blocks := by
  induction blocks generalizing pos with
  | nil => exact advance_zero pos_lt.le
  | cons nr rest induction =>
      have first := proper nr (by simp)
      simp only [span] at room
      rw [span, ← advance_advance pos_lt.le room.le, advance_extent pos_lt first]
      exact induction (place_add_lt first)
        (fun other member => proper other (List.mem_cons_of_mem _ member)) (by omega)

theorem stop_append (size pos : Nat) (left right : List Nat) :
    stop size pos (left ++ right) = stop size (stop size pos left) right := by
  induction left generalizing pos with
  | nil => rfl
  | cons nr rest induction => exact induction _

theorem span_append (size pos : Nat) (left right : List Nat) :
    span size pos (left ++ right) =
      span size pos left + span size (stop size pos left) right := by
  induction left generalizing pos with
  | nil => simp [span, stop]
  | cons nr rest induction =>
      simp only [List.cons_append, span, stop, induction]
      omega

theorem sum_le_span (size pos : Nat) (blocks : List Nat) : blocks.sum ≤ span size pos blocks := by
  induction blocks generalizing pos with
  | nil => exact le_rfl
  | cons nr rest induction =>
      have later := induction (place size pos nr + nr)
      have first : nr ≤ extent size pos nr := by
        unfold extent
        split <;> omega
      rw [List.sum_cons, span]
      omega

end SegmentRing
