import Mathlib.Tactic

/-!
# Bounded byte regions

A memory image is a function from addresses to cells.  `slice` and `splice` are the total read and
write of consecutive cells; a `ByteRegion` adds the size of an allocation, and its accesses fail
when they leave it.  The second part is the little-endian coding of 32-bit words.
-/

/-- `len` consecutive cells of a memory image, from `offset` on. -/
def slice {α : Type*} (cells : Nat → α) (offset len : Nat) : List α :=
  (List.range len).map fun index => cells (offset + index)

/-- Overwrite consecutive cells of a memory image with `data`, from `offset` on. -/
def splice {α : Type*} (cells : Nat → α) (offset : Nat) (data : List α) : Nat → α :=
  fun address =>
    if address < offset then cells address
    else (data[address - offset]?).getD (cells address)

variable {α : Type*} {first second : Nat → α}

@[simp] theorem length_slice (cells : Nat → α) (offset len : Nat) :
    (slice cells offset len).length = len := by
  simp [slice]

@[simp] theorem slice_zero (cells : Nat → α) (offset : Nat) :
    slice cells offset 0 = [] := rfl

theorem getElem_slice (cells : Nat → α) (offset len index : Nat)
    (inside : index < (slice cells offset len).length) :
    (slice cells offset len)[index] = cells (offset + index) := by
  simp [slice]

theorem slice_add (cells : Nat → α) (offset left right : Nat) :
    slice cells offset (left + right) =
      slice cells offset left ++ slice cells (offset + left) right := by
  simp [slice, List.range_add, List.map_append, Function.comp_def, Nat.add_assoc]

theorem slice_congr {offset len : Nat}
    (agree : ∀ index < len, first (offset + index) = second (offset + index)) :
    slice first offset len = slice second offset len := by
  apply List.map_congr_left
  intro index member
  exact agree index (List.mem_range.mp member)

@[simp] theorem splice_nil (cells : Nat → α) (offset : Nat) : splice cells offset [] = cells := by
  funext address
  simp [splice]

theorem splice_inside (cells : Nat → α) (offset : Nat) (data : List α) (index : Nat)
    (inside : index < data.length) : splice cells offset data (offset + index) = data[index] := by
  simp [splice, List.getElem?_eq_getElem inside]

theorem splice_outside (cells : Nat → α) (offset : Nat) (data : List α) (address : Nat)
    (outside : address < offset ∨ offset + data.length ≤ address) :
    splice cells offset data address = cells address := by
  unfold splice
  split
  · rfl
  · have beyond : data.length ≤ address - offset := by omega
    simp [List.getElem?_eq_none beyond]

theorem splice_splice (cells : Nat → α) (offset : Nat) (front back : List α) :
    splice (splice cells offset front) (offset + front.length) back =
      splice cells offset (front ++ back) := by
  funext address
  by_cases before : address < offset
  · rw [splice_outside _ _ _ _ (by omega), splice_outside _ _ _ _ (by omega),
      splice_outside _ _ _ _ (by omega)]
  · obtain ⟨index, rfl⟩ := Nat.exists_eq_add_of_le (Nat.le_of_not_lt before)
    by_cases inFront : index < front.length
    · rw [splice_outside _ _ _ _ (by omega), splice_inside _ _ _ _ inFront,
        splice_inside _ _ _ _ (by simp; omega), List.getElem_append_left inFront]
    · obtain ⟨rest, rfl⟩ := Nat.exists_eq_add_of_le (Nat.le_of_not_lt inFront)
      by_cases inBack : rest < back.length
      · rw [← Nat.add_assoc, splice_inside _ _ _ _ inBack, Nat.add_assoc,
          splice_inside _ _ _ _ (by simp; omega), List.getElem_append_right (by omega)]
        simp
      · rw [splice_outside _ _ _ _ (by omega), splice_outside _ _ _ _ (by omega),
          splice_outside _ _ _ _ (by simp; omega)]

theorem slice_splice (cells : Nat → α) (offset : Nat) (data : List α) :
    slice (splice cells offset data) offset data.length = data := by
  apply List.ext_getElem (by simp)
  intro index _ inside
  rw [getElem_slice, splice_inside _ _ _ _ inside]

theorem slice_splice_disjoint (cells : Nat → α) (offset start len : Nat) (data : List α)
    (disjoint : start + len ≤ offset ∨ offset + data.length ≤ start) :
    slice (splice cells offset data) start len = slice cells start len := by
  apply slice_congr
  intro index inside
  exact splice_outside _ _ _ _ (by omega)

theorem slice_splice_middle (cells : Nat → α) (front middle back : List α) :
    slice (splice cells 0 (front ++ (middle ++ back))) front.length middle.length = middle := by
  rw [← splice_splice, Nat.zero_add, ← splice_splice (splice cells 0 front),
    slice_splice_disjoint _ _ _ _ _ (Or.inl (le_refl _)), slice_splice]

theorem cell_eq_of_slice_eq {len : Nat} (same : slice first 0 len = slice second 0 len)
    {index : Nat} (inside : index < len) : first index = second index := by
  have cells := congrArg (·[index]?) same
  simpa [slice, inside] using cells

/-- The bytes that a call has taken from the front of a list, and those that are left. -/
theorem take_append_drop_length (list : List α) (count : Nat) :
    list.take count ++ list.drop (list.take count).length = list := by
  rw [List.length_take]
  rcases Nat.le_total count list.length with le | ge
  · rw [Nat.min_eq_left le, List.take_append_drop]
  · rw [Nat.min_eq_right ge, List.drop_length, List.append_nil, List.take_of_length_le ge]

/-- An allocation of `size` bytes; addresses from `size` on are not part of it. -/
structure ByteRegion where
  size : Nat
  byte : Nat → UInt8

namespace ByteRegion

/-- Read `len` bytes, failing when one of them lies outside the allocation. -/
def read (region : ByteRegion) (offset len : Nat) : Option (List UInt8) :=
  if offset + len ≤ region.size then some (slice region.byte offset len) else none

/-- Write `data`, failing when one byte of it lies outside the allocation. -/
def write (region : ByteRegion) (offset : Nat) (data : List UInt8) : Option ByteRegion :=
  if offset + data.length ≤ region.size then
    some { region with byte := splice region.byte offset data }
  else
    none

variable {region : ByteRegion} {offset len : Nat}

theorem read_eq (inside : offset + len ≤ region.size) :
    region.read offset len = some (slice region.byte offset len) :=
  if_pos inside

theorem write_eq {data : List UInt8} (inside : offset + data.length ≤ region.size) :
    region.write offset data = some { region with byte := splice region.byte offset data } :=
  if_pos inside

theorem write_next {size pos : Nat} {cells : Nat → UInt8} {front data : List UInt8}
    (pos_eq : pos = front.length) (inside : front.length + data.length ≤ size) :
    (ByteRegion.mk size (splice cells 0 front)).write pos data =
      some ⟨size, splice cells 0 (front ++ data)⟩ := by
  rw [pos_eq, write_eq inside, ← splice_splice, Nat.zero_add]

/-- The region from a place on. -/
def behind (region : ByteRegion) (start : Nat) : ByteRegion :=
  ⟨region.size - start, fun address => region.byte (start + address)⟩

theorem behind_behind (region : ByteRegion) (first second : Nat) :
    (region.behind first).behind second = region.behind (first + second) := by
  simp only [behind, Nat.sub_sub, Nat.add_assoc]

theorem behind_read {start : Nat} (inside : start + len ≤ region.size) :
    (region.behind start).read 0 len = some (slice region.byte start len) := by
  rw [read_eq (show 0 + len ≤ region.size - start by omega)]
  simp only [behind, slice, Nat.zero_add]

/-- The memory with other bytes from an address on. -/
def withBehind (region : ByteRegion) (start : Nat) (rest : ByteRegion) : ByteRegion :=
  { region with
    byte := fun address =>
      if address < start then region.byte address else rest.byte (address - start) }

theorem withBehind_behind (region : ByteRegion) (start : Nat) :
    region.withBehind start (region.behind start) = region := by
  rw [withBehind]
  congr 1
  funext address
  split
  · rfl
  · rename_i behind_start
    exact congrArg region.byte (Nat.add_sub_cancel' (Nat.le_of_not_lt behind_start))

end ByteRegion

/-- The four bytes of a 32-bit word, least significant first. -/
def le32 (word : Nat) : List UInt8 :=
  [UInt8.ofNat word, UInt8.ofNat (word / 256), UInt8.ofNat (word / 65536),
    UInt8.ofNat (word / 16777216)]

/-- The 32-bit word stored, least significant byte first, in the first four bytes. -/
def readLe32 : List UInt8 → Nat
  | b₀ :: b₁ :: b₂ :: b₃ :: _ =>
      b₀.toNat + 256 * b₁.toNat + 65536 * b₂.toNat + 16777216 * b₃.toNat
  | _ => 0

@[simp] theorem length_le32 (word : Nat) : (le32 word).length = 4 := rfl

theorem readLe32_le32_append (word : Nat) (rest : List UInt8) :
    readLe32 (le32 word ++ rest) = word % 4294967296 := by
  simp only [le32, List.cons_append, List.nil_append, readLe32, UInt8.toNat_ofNat']
  omega

theorem readLe32_lt (bytes : List UInt8) : readLe32 bytes < 4294967296 := by
  unfold readLe32
  split
  · rename_i b₀ b₁ b₂ b₃ _
    have := b₀.toNat_lt
    have := b₁.toNat_lt
    have := b₂.toNat_lt
    have := b₃.toNat_lt
    omega
  · decide
