import Spp.Lib.ByteRegion

/-!
# Circular buffers with closed positions

A position of a circular buffer of `size` cells is a number in `[0, size]`: the two ends denote the
same place, and a position is allowed to rest at either of them.  `advance` moves a position,
`sliceCircular` reads and `spliceCircular` writes from it on, and the laws below hold for every
position, so that no client has to normalise the end to the start.
-/

namespace CircularBuffer

/-- Address of the cell `index` places after the position `start`. -/
def wrap (size start index : Nat) : Nat :=
  if start + index < size then start + index else start + index - size

/-- Position `len` cells after the position `start`; it stays at the end when it arrives there. -/
def advance (size start len : Nat) : Nat :=
  if start + len ≤ size then start + len else start + len - size

/-- Number of cells from the position `first` on to the position `last`. -/
def distance (size first last : Nat) : Nat :=
  if first ≤ last then last - first else size - first + last

/-- The cells of a ring from a place on. -/
def sliceCircular {α : Type*} (size : Nat) (cells : Nat → α) (start len : Nat) : List α :=
  (List.range len).map fun index => cells (wrap size start index)

/-- Write `data` from the position `start` on: up to the end, then from address zero. -/
def spliceCircular {α : Type*} (size : Nat) (cells : Nat → α) (start : Nat) (data : List α) :
    Nat → α :=
  splice (splice cells start (data.take (size - start))) 0 (data.drop (size - start))

/-! ## Positions -/

variable {size start len left right index used : Nat}

theorem advance_le (start_le : start ≤ size) (len_le : len ≤ size) :
    advance size start len ≤ size := by
  unfold advance
  split <;> omega

@[simp] theorem advance_zero (start_le : start ≤ size) : advance size start 0 = start := by
  simp [advance, start_le]

theorem advance_advance (start_le : start ≤ size) (total_le : left + right ≤ size) :
    advance size (advance size start left) right = advance size start (left + right) := by
  unfold advance
  split <;> split <;> split <;> omega

theorem advance_ne_self (len_pos : 0 < len) (len_lt : len < size) :
    advance size start len ≠ start := by
  unfold advance
  split <;> omega

/-- The cells read after a move are the later cells of the whole read. -/
theorem wrap_advance (start_le : start ≤ size) (inside : len + index < size) :
    wrap size (advance size start len) index = wrap size start (len + index) := by
  unfold wrap advance
  split <;> split <;> split <;> omega

theorem wrap_zero (start_lt : start < size) : wrap size start 0 = start :=
  if_pos start_lt

theorem eq_wrap_of_eq_advance {pos : Nat} (pos_lt : pos < size)
    (pos_eq : pos = advance size start len) : pos = wrap size start len := by
  unfold advance at pos_eq
  unfold wrap
  split at pos_eq <;> split <;> omega

theorem wrap_wrap (start_lt : start < size) (total_le : left + right ≤ size) :
    wrap size (wrap size start left) right = wrap size start (left + right) := by
  unfold wrap
  split <;> split <;> split <;> omega

theorem wrap_injective (left_lt : left < size) (right_lt : right < size)
    (same : wrap size start left = wrap size start right) : left = right := by
  unfold wrap at same
  split at same <;> split at same <;> omega

theorem wrap_lt (start_le : start ≤ size) (index_lt : index < size) :
    wrap size start index < size := by
  unfold wrap
  split <;> omega

/-! ## Reads -/

section Read

variable {α : Type*} (cells : Nat → α)

@[simp] theorem length_sliceCircular (len : Nat) :
    (sliceCircular size cells start len).length = len := by
  simp [sliceCircular]

theorem sliceCircular_eq_slice (fits : start + len ≤ size) :
    sliceCircular size cells start len = slice cells start len := by
  apply List.map_congr_left
  intro index member
  have index_lt := List.mem_range.mp member
  rw [wrap, if_pos (by omega)]

/-- A read that crosses the end is the read up to the end, then one from address zero. -/
theorem sliceCircular_eq_append (start_le : start ≤ size) (crosses : size - start ≤ len) :
    sliceCircular size cells start len =
      slice cells start (size - start) ++ slice cells 0 (len - (size - start)) := by
  obtain ⟨rest, rfl⟩ := Nat.exists_eq_add_of_le crosses
  rw [Nat.add_sub_cancel_left, sliceCircular, List.range_add, List.map_append]
  congr 1
  · apply List.map_congr_left
    intro index member
    have index_lt := List.mem_range.mp member
    rw [wrap, if_pos (by omega)]
  · rw [slice, List.map_map]
    apply List.map_congr_left
    intro index _
    rw [Function.comp_apply, wrap, if_neg (by omega)]
    congr 1
    omega

theorem sliceCircular_add (start_le : start ≤ size) (total_le : left + right ≤ size) :
    sliceCircular size cells start (left + right) =
      sliceCircular size cells start left ++
        sliceCircular size cells (advance size start left) right := by
  rw [sliceCircular, List.range_add, List.map_append, List.map_map]
  congr 1
  apply List.map_congr_left
  intro index member
  have index_lt := List.mem_range.mp member
  rw [Function.comp_apply, wrap_advance start_le (by omega)]

theorem sliceCircular_congr {second : Nat → α}
    (agree : ∀ index < len, cells (wrap size start index) = second (wrap size start index)) :
    sliceCircular size cells start len = sliceCircular size second start len := by
  apply List.map_congr_left
  intro index member
  exact agree index (List.mem_range.mp member)

end Read

/-! ## Writes -/

section Write

variable {α : Type*} (cells : Nat → α) {data : List α}

theorem spliceCircular_eq_splice (fits : start + data.length ≤ size) :
    spliceCircular size cells start data = splice cells start data := by
  have short : data.length ≤ size - start := by omega
  rw [spliceCircular, List.take_of_length_le short, List.drop_eq_nil_of_le short, splice_nil]

theorem spliceCircular_append {front back : List α} (front_len : start + front.length = size) :
    spliceCircular size cells start (front ++ back) =
      splice (splice cells start front) 0 back := by
  have cut : size - start = front.length := by omega
  rw [spliceCircular, cut, List.take_left, List.drop_left]

theorem spliceCircular_inside (start_le : start ≤ size) (data_le : data.length ≤ size)
    (inside : index < data.length) :
    spliceCircular size cells start data (wrap size start index) = data[index] := by
  unfold spliceCircular wrap
  split
  · rw [splice_outside _ _ _ _ (by simp; omega),
      splice_inside _ _ _ _ (by simp; omega), List.getElem_take]
  · obtain ⟨rest, rfl⟩ := Nat.exists_eq_add_of_le (show size - start ≤ index by omega)
    rw [show start + (size - start + rest) - size = 0 + rest by omega,
      splice_inside _ _ _ _ (by simp; omega), List.getElem_drop]

theorem spliceCircular_outside (start_le : start ≤ size) (beyond : data.length ≤ index)
    (index_lt : index < size) :
    spliceCircular size cells start data (wrap size start index) =
      cells (wrap size start index) := by
  unfold spliceCircular wrap
  split
  · rw [splice_outside _ _ _ _ (by simp; omega), splice_outside _ _ _ _ (by simp; omega)]
  · rw [splice_outside _ _ _ _ (by simp; omega), splice_outside _ _ _ _ (by simp; omega)]

theorem spliceCircular_beyond (start_le : start ≤ size) (data_le : data.length ≤ size)
    {address : Nat} (beyond : size ≤ address) :
    spliceCircular size cells start data address = cells address := by
  unfold spliceCircular
  rw [splice_outside _ _ _ _ (by simp; omega), splice_outside _ _ _ _ (by simp; omega)]

theorem sliceCircular_spliceCircular (start_le : start ≤ size) (data_le : data.length ≤ size) :
    sliceCircular size (spliceCircular size cells start data) start data.length = data := by
  apply List.ext_getElem (by simp)
  intro index _ inside
  simp only [sliceCircular, List.getElem_map, List.getElem_range]
  exact spliceCircular_inside cells start_le data_le inside

/-- Writing right after `used` cells, with room for it, leaves these cells unchanged. -/
theorem sliceCircular_spliceCircular_frame (start_le : start ≤ size)
    (room : used + data.length ≤ size) :
    sliceCircular size (spliceCircular size cells (advance size start used) data) start used =
      sliceCircular size cells start used := by
  apply sliceCircular_congr
  intro index index_lt
  have behind : wrap size start index =
      wrap size (advance size start used) (size - used + index) := by
    unfold wrap advance
    split <;> split <;> split <;> omega
  rw [behind]
  exact spliceCircular_outside cells (advance_le start_le (by omega)) (by omega) (by omega)

/-- Appending to a circular queue: the read over old and new cells is the concatenation. -/
theorem sliceCircular_append (start_le : start ≤ size) (room : used + data.length ≤ size) :
    sliceCircular size (spliceCircular size cells (advance size start used) data) start
        (used + data.length) =
      sliceCircular size cells start used ++ data := by
  rw [sliceCircular_add _ start_le room, sliceCircular_spliceCircular_frame cells start_le room,
    sliceCircular_spliceCircular cells (advance_le start_le (by omega)) (by omega)]

end Write

end CircularBuffer
