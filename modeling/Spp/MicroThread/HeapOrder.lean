import Spp.MicroThread.HeapList

/-!
# The order of the heap

`Indexed` ties the array to the indexes stored in the entries, and `Ordered` is the order of the
values.  `HeapPush` and `HeapPop` keep both; `HeapDelete` moves the last entry only towards the
leaves.
-/

namespace Spp.HeapList

variable {ι : Type} [DecidableEq ι]

/-- The slots 1 to `count` are filled, and the entries but those of `stray` have their slot as
index, 0 if they have none. -/
structure Indexed (heap : HeapList ι) (stray : ι → Prop) : Prop where
  count_le : heap.count ≤ heap.max
  slot : ∀ pos, 1 ≤ pos → pos ≤ heap.count →
    ∃ entry, ¬ stray entry ∧ heap.list pos = some entry ∧ heap.index entry = pos
  rest : ∀ pos, pos = 0 ∨ heap.count < pos → heap.list pos = none
  home : ∀ entry, ¬ stray entry → heap.index entry ≠ 0 →
    heap.index entry ≤ heap.count ∧ heap.list (heap.index entry) = some entry

/-- The value in a slot. -/
def keyAt (value : ι → Nat) (heap : HeapList ι) (pos : Nat) : Nat :=
  ((heap.list pos).map value).getD 0

/-- No entry is below its parent. -/
def Ordered (value : ι → Nat) (heap : HeapList ι) : Prop :=
  BinaryHeap.Ordered (heap.keyAt value) heap.count

/-- The two heaps have the same size and the same entries. -/
structure Rearranged (heap after : HeapList ι) : Prop where
  count_eq : after.count = heap.count
  max_eq : after.max = heap.max
  member_iff : ∀ entry, after.index entry = 0 ↔ heap.index entry = 0

variable {pos rounds : Nat} {entry rhs item : ι}

omit [DecidableEq ι] in
theorem Rearranged.refl (heap : HeapList ι) : Rearranged heap heap := ⟨rfl, rfl, fun _ => Iff.rfl⟩

omit [DecidableEq ι] in
theorem Rearranged.trans {heap between after : HeapList ι} (first : Rearranged heap between)
    (second : Rearranged between after) : Rearranged heap after :=
  ⟨second.count_eq.trans first.count_eq, second.max_eq.trans first.max_eq,
    fun entry => (second.member_iff entry).trans (first.member_iff entry)⟩

section Slots

variable {value : ι → Nat} {heap : HeapList ι} {stray : ι → Prop}

omit [DecidableEq ι] in
theorem keyAt_of_list (at_pos : heap.list pos = some entry) :
    heap.keyAt value pos = value entry := by
  rw [keyAt, at_pos]
  rfl

omit [DecidableEq ι] in
theorem Indexed.entryAt (indexed : Indexed heap stray) (pos_pos : 1 ≤ pos)
    (pos_le : pos ≤ heap.count) :
    ∃ entry, heap.entryAt pos = some entry ∧ heap.list pos = some entry ∧
      heap.index entry = pos ∧ ¬ stray entry := by
  obtain ⟨entry, not_stray, at_pos, index_eq⟩ := indexed.slot pos pos_pos pos_le
  refine ⟨entry, ?_, at_pos, index_eq, not_stray⟩
  rw [HeapList.entryAt, if_pos (pos_le.trans indexed.count_le), at_pos]

omit [DecidableEq ι] in
theorem heapValueCmp_neg : heapValueCmp value entry rhs < 0 ↔ value entry < value rhs := by
  unfold heapValueCmp
  split <;> [skip; split] <;> omega

omit [DecidableEq ι] in
theorem heapValueCmp_pos : heapValueCmp value entry rhs > 0 ↔ value rhs < value entry := by
  unfold heapValueCmp
  split <;> [skip; split] <;> omega

/-! ## Exchanging two entries -/

section Exchange

variable {slot : Nat} {other : ι}

theorem exchanged_list (at_pos : heap.list pos = some entry)
    (at_slot : heap.list slot = some other) (place : Nat) :
    (heap.exchanged pos slot entry other).list place =
      BinaryHeap.exchange heap.list pos slot place := by
  simp only [exchanged, setIndex, BinaryHeap.exchange, Function.update_apply]
  split_ifs <;> simp_all

theorem exchanged_keyAt (at_pos : heap.list pos = some entry)
    (at_slot : heap.list slot = some other) :
    (heap.exchanged pos slot entry other).keyAt value =
      BinaryHeap.exchange (heap.keyAt value) pos slot := by
  funext place
  rw [keyAt, exchanged_list at_pos at_slot, BinaryHeap.exchange, BinaryHeap.exchange]
  split_ifs <;> rfl

theorem exchanged_index (place : ι) :
    (heap.exchanged pos slot entry other).index place =
      if place = entry then slot else if place = other then pos else heap.index place := by
  simp only [exchanged, setIndex, Function.update_apply]

theorem Indexed.exchanged (indexed : Indexed heap stray) (pos_pos : 1 ≤ pos) (slot_pos : 1 ≤ slot)
    (pos_le : pos ≤ heap.count) (slot_le : slot ≤ heap.count) (pos_ne : pos ≠ slot)
    (at_pos : heap.list pos = some entry) (at_slot : heap.list slot = some other) :
    Indexed (heap.exchanged pos slot entry other) stray := by
  have entry_slot : heap.index entry = pos ∧ ¬ stray entry := by
    obtain ⟨found, not_stray, at_found, index_eq⟩ := indexed.slot pos pos_pos pos_le
    obtain rfl : entry = found := by simpa [at_pos] using at_found
    exact ⟨index_eq, not_stray⟩
  have other_slot : heap.index other = slot ∧ ¬ stray other := by
    obtain ⟨found, not_stray, at_found, index_eq⟩ := indexed.slot slot slot_pos slot_le
    obtain rfl : other = found := by simpa [at_slot] using at_found
    exact ⟨index_eq, not_stray⟩
  have other_ne : other ≠ entry := by
    rintro rfl
    exact pos_ne (entry_slot.1.symm.trans other_slot.1)
  obtain ⟨count_le, slot_entry, rest, home⟩ := indexed
  refine ⟨count_le, ?_, ?_, ?_⟩ <;>
    simp only [HeapList.exchanged, setIndex, Function.update_apply] <;> grind

theorem rearranged_exchanged (pos_pos : 1 ≤ pos) (slot_pos : 1 ≤ slot)
    (index_entry : heap.index entry = pos) (index_other : heap.index other = slot) :
    Rearranged heap (heap.exchanged pos slot entry other) := by
  refine ⟨rfl, rfl, fun found => ?_⟩
  rw [exchanged_index]
  split_ifs with is_entry is_other
  · subst is_entry
    omega
  · subst is_other
    omega
  · rfl

end Exchange

/-! ## The two loops -/

theorem heapUpLoop_spec (value : ι → Nat) (indexed : Indexed heap stray) (pos_pos : 1 ≤ pos)
    (pos_le : pos ≤ heap.count) (enough : pos < rounds) :
    ∃ after, heapUpLoop value rounds pos heap = some after ∧ Indexed after stray ∧
      Rearranged heap after ∧
      (BinaryHeap.RisesAt (heap.keyAt value) heap.count pos → Ordered value after) := by
  induction rounds generalizing pos heap with
  | zero => omega
  | succ rounds induction =>
      unfold heapUpLoop
      split
      · refine ⟨heap, rfl, indexed, Rearranged.refl heap, fun rises => rises.ordered ?_⟩
        omega
      · obtain ⟨entry, entry_at, at_pos, index_entry, -⟩ := indexed.entryAt pos_pos pos_le
        obtain ⟨parent, parent_at, at_parent, index_parent, -⟩ :=
          indexed.entryAt (show 1 ≤ pos / 2 by omega) (show pos / 2 ≤ heap.count by omega)
        have pos_ne : pos ≠ pos / 2 := by omega
        simp only [entry_at, parent_at, Option.bind_eq_bind, Option.bind_some]
        split
        · rename_i below
          rw [heapValueCmp_neg] at below
          obtain ⟨after, loop, indexed_after, rearranged, ordered⟩ :=
            induction (indexed.exchanged pos_pos (by omega) pos_le (by omega) pos_ne at_pos
              at_parent) (show 1 ≤ pos / 2 by omega) (show pos / 2 ≤ heap.count by omega) (by omega)
          refine ⟨after, loop, indexed_after,
            (rearranged_exchanged pos_pos (by omega) index_entry index_parent).trans rearranged,
            fun rises => ordered ?_⟩
          rw [exchanged_keyAt at_pos at_parent]
          refine rises.exchange (by omega) pos_le ?_
          rwa [keyAt_of_list at_pos, keyAt_of_list at_parent]
        · rename_i stops
          rw [heapValueCmp_neg] at stops
          refine ⟨heap, rfl, indexed, Rearranged.refl heap, fun rises => rises.ordered fun _ => ?_⟩
          rw [keyAt_of_list at_pos, keyAt_of_list at_parent]
          omega

omit [DecidableEq ι] in
theorem minSon_spec (value : ι → Nat) (indexed : Indexed heap stray) (pos_pos : 1 ≤ pos)
    (has_son : pos * 2 ≤ heap.count) :
    ∃ son, heap.minSon value pos = some son ∧ son / 2 = pos ∧ son ≤ heap.count ∧
      ∀ other, other / 2 = pos → other ≤ heap.count →
        heap.keyAt value son ≤ heap.keyAt value other := by
  unfold minSon
  split
  · refine ⟨pos * 2, rfl, by omega, has_son, fun other other_half other_le => ?_⟩
    obtain rfl : other = pos * 2 := by omega
    exact le_rfl
  · obtain ⟨left, left_at, at_left, -⟩ :=
      indexed.entryAt (show 1 ≤ pos * 2 by omega) (show pos * 2 ≤ heap.count by omega)
    obtain ⟨right, right_at, at_right, -⟩ :=
      indexed.entryAt (show 1 ≤ pos * 2 + 1 by omega) (show pos * 2 + 1 ≤ heap.count by omega)
    have key_left : heap.keyAt value (pos * 2) = value left := keyAt_of_list at_left
    have key_right : heap.keyAt value (pos * 2 + 1) = value right := keyAt_of_list at_right
    simp only [left_at, right_at, Option.bind_eq_bind, Option.bind_some, heapValueCmp_neg]
    refine ⟨_, rfl, ?_, ?_, fun other other_half other_le => ?_⟩
    · split <;> omega
    · split <;> omega
    · obtain rfl | rfl : other = pos * 2 ∨ other = pos * 2 + 1 := by omega
      · split <;> omega
      · split <;> omega

omit [DecidableEq ι] in
theorem Indexed.int32_double (indexed : Indexed heap stray) (small : heap.max < 1073741824)
    (pos_le : pos ≤ heap.count) : int32 ((pos : Int) * 2) = some ((pos : Int) * 2) := by
  have count_le := indexed.count_le
  exact if_pos (by omega)

theorem heapDownLoop_spec (value : ι → Nat) (indexed : Indexed heap stray)
    (small : heap.max < 1073741824) (pos_pos : 1 ≤ pos) (enough : heap.count < pos + rounds)
    (rounds_pos : 1 ≤ rounds) :
    ∃ after, heapDownLoop value rounds pos heap = some after ∧ Indexed after stray ∧
      Rearranged heap after ∧
      (BinaryHeap.SinksAt (heap.keyAt value) heap.count pos → Ordered value after) := by
  induction rounds generalizing pos heap with
  | zero => omega
  | succ rounds induction =>
      unfold heapDownLoop
      split
      · rename_i pos_le
        simp only [indexed.int32_double small pos_le, Option.bind_eq_bind, Option.bind_some]
        split
        · refine ⟨heap, rfl, indexed, Rearranged.refl heap, fun sinks => sinks.ordered ?_⟩
          intro son son_ge son_half son_le
          omega
        · obtain ⟨son, son_eq, son_half, son_le, least⟩ :=
            minSon_spec value indexed pos_pos (by omega)
          obtain ⟨entry, entry_at, at_pos, index_entry, -⟩ :=
            indexed.entryAt pos_pos pos_le
          obtain ⟨other, other_at, at_son, index_other, -⟩ :=
            indexed.entryAt (show 1 ≤ son by omega) son_le
          have pos_ne : pos ≠ son := by omega
          simp only [son_eq, entry_at, other_at, Option.bind_some]
          split
          · rename_i above
            rw [heapValueCmp_pos] at above
            obtain ⟨after, loop, indexed_after, rearranged, ordered⟩ :=
              induction (indexed.exchanged pos_pos (by omega) (by omega) son_le pos_ne at_pos
                at_son) small (show 1 ≤ son by omega)
                (show heap.count < son + rounds by omega) (by omega)
            refine ⟨after, loop, indexed_after,
              (rearranged_exchanged pos_pos (by omega) index_entry index_other).trans rearranged,
              fun sinks => ordered ?_⟩
            rw [exchanged_keyAt at_pos at_son]
            refine sinks.exchange pos_pos son_half son_le ?_ least
            rwa [keyAt_of_list at_pos, keyAt_of_list at_son]
          · rename_i stops
            rw [heapValueCmp_pos] at stops
            refine ⟨heap, rfl, indexed, Rearranged.refl heap, fun sinks => sinks.ordered ?_⟩
            intro brother _ brother_half brother_le
            refine le_trans ?_ (least brother brother_half brother_le)
            rw [keyAt_of_list at_pos, keyAt_of_list at_son]
            omega
      · refine ⟨heap, rfl, indexed, Rearranged.refl heap, fun sinks => sinks.ordered ?_⟩
        intro son son_ge son_half son_le
        omega

end Slots

/-! ## The operations -/

section Operations

variable {value : ι → Nat} {heap : HeapList ι}

/-- A heap with no stray entries. -/
abbrev Sound (heap : HeapList ι) : Prop := Indexed heap fun _ => False

omit [DecidableEq ι] in
theorem sound_new (max : Int) : Sound (new max : HeapList ι) := by
  refine ⟨Nat.zero_le _, ?_, fun _ _ => rfl, fun _ _ index_ne => absurd rfl index_ne⟩
  intro pos pos_pos pos_le
  have pos_le : pos ≤ 0 := pos_le
  omega

omit [DecidableEq ι] in
theorem new_max_lt {max : Int} (small : max < 1073741824) :
    (new max : HeapList ι).max < 1073741824 := by
  simp only [new]
  split <;> omega

omit [DecidableEq ι] in
theorem Indexed.index_eq (sound : Sound heap) (pos_pos : 1 ≤ pos)
    (at_pos : heap.list pos = some entry) : heap.index entry = pos := by
  have pos_le : pos ≤ heap.count := by
    by_contra out
    rw [sound.rest pos (by omega)] at at_pos
    exact absurd at_pos (by simp)
  obtain ⟨found, -, at_found, index_eq⟩ := sound.slot pos pos_pos pos_le
  obtain rfl : entry = found := by simpa [at_pos] using at_found
  exact index_eq

omit [DecidableEq ι] in
theorem Indexed.index_of_top (sound : Sound heap) {top : ι} (is_top : heap.heapTop = some top) :
    heap.index top = 1 := by
  unfold heapTop at is_top
  split at is_top
  · exact sound.index_eq le_rfl is_top
  · exact absurd is_top (by simp)

omit [DecidableEq ι] in
theorem Indexed.ordered_congr (sound : Sound heap) {other : ι → Nat}
    (same : ∀ entry, heap.index entry ≠ 0 → other entry = value entry)
    (ordered : Ordered value heap) : Ordered other heap := by
  refine ordered.congr fun pos pos_pos pos_le => ?_
  obtain ⟨entry, -, at_pos, index_eq⟩ := sound.slot pos pos_pos pos_le
  rw [keyAt_of_list at_pos, keyAt_of_list at_pos]
  exact same entry (by omega)

/-! ### Pushing -/

section Appended

theorem appended_list (pos : Nat) :
    (heap.appended item).list pos = if pos = heap.count + 1 then some item else heap.list pos := by
  simp only [appended, setIndex, Function.update_apply]

theorem appended_index (entry : ι) :
    (heap.appended item).index entry =
      if entry = item then heap.count + 1 else heap.index entry := by
  simp only [appended, setIndex, Function.update_apply]

theorem Indexed.appended (sound : Sound heap) (room : heap.count < heap.max)
    (fresh : heap.index item = 0) : Sound (heap.appended item) := by
  obtain ⟨count_le, slot_entry, rest, home⟩ := sound
  refine ⟨room, ?_, ?_, ?_⟩ <;>
    simp only [HeapList.appended, setIndex, Function.update_apply] <;> grind

theorem risesAt_appended (ordered : Ordered value heap) :
    BinaryHeap.RisesAt ((heap.appended item).keyAt value) (heap.count + 1) (heap.count + 1) := by
  refine ordered.risesAt_succ fun pos _ pos_le => ?_
  rw [keyAt, appended_list, if_neg (by omega), keyAt]

end Appended

theorem heapPush_spec (value : ι → Nat) (sound : Sound heap) (room : heap.count < heap.max)
    (fresh : heap.index item = 0) :
    ∃ after, heap.heapPush value item = some (0, after) ∧ Sound after ∧
      after.count = heap.count + 1 ∧ after.max = heap.max ∧
      (∀ entry, after.index entry = 0 ↔ heap.index entry = 0 ∧ entry ≠ item) ∧
      (Ordered value heap → Ordered value after) := by
  have not_full : ¬ heap.heapFull = true := by
    simp only [heapFull, decide_eq_true_eq]
    omega
  obtain ⟨after, loop, sound_after, rearranged, ordered⟩ :=
    heapUpLoop_spec value (sound.appended room fresh)
      (show 1 ≤ (heap.appended item).count from Nat.succ_pos _) le_rfl (Nat.lt_succ_self _)
  refine ⟨after, ?_, sound_after, rearranged.count_eq, rearranged.max_eq, ?_,
    fun ordered_heap => ordered (risesAt_appended ordered_heap)⟩
  · rw [heapPush, if_neg not_full, if_neg (not_not_intro fresh), heapUp, loop, Option.map_some]
  · intro entry
    rw [rearranged.member_iff, appended_index]
    split
    · simp_all
    · simp_all

/-! ### Removing -/

section Replaced

variable {del last : ι}

theorem replaced_list (place : Nat) :
    (heap.replaced pos last).list place =
      if place = heap.count then none else if place = pos then some last else heap.list place := by
  simp only [replaced, setIndex, Function.update_apply]

theorem replaced_index (entry : ι) :
    (heap.replaced pos last).index entry = if entry = last then pos else heap.index entry := by
  simp only [replaced, setIndex, Function.update_apply]

theorem Indexed.replaced (sound : Sound heap) (pos_pos : 1 ≤ pos) (pos_le : pos ≤ heap.count)
    (at_pos : heap.list pos = some del) (at_last : heap.list heap.count = some last) :
    Indexed (heap.replaced pos last) fun entry => entry = del := by
  have index_del : heap.index del = pos := sound.index_eq pos_pos at_pos
  have index_last : heap.index last = heap.count := sound.index_eq (by omega) at_last
  obtain ⟨count_le, slot_entry, rest, home⟩ := sound
  refine ⟨(Nat.sub_le _ _).trans count_le, ?_, ?_, ?_⟩ <;>
    simp only [HeapList.replaced, setIndex, Function.update_apply] <;> grind

theorem sinksAt_replaced (ordered : Ordered value heap) (pos_pos : 1 ≤ pos)
    (at_last : heap.list heap.count = some last)
    (parent_le : 2 ≤ pos → heap.keyAt value (pos / 2) ≤ heap.keyAt value heap.count) :
    BinaryHeap.SinksAt ((heap.replaced pos last).keyAt value) (heap.count - 1) pos := by
  refine ordered.sinksAt_of_replace pos_pos ?_ ?_ fun pos_ge _ => parent_le pos_ge
  · intro pos_lt
    rw [keyAt, replaced_list, if_neg (by omega), if_pos rfl, keyAt_of_list at_last]
    rfl
  · intro place _ place_lt place_ne
    rw [keyAt, replaced_list, if_neg (by omega), if_neg place_ne, keyAt]

theorem setIndex_index (entry : ι) (index : Nat) (other : ι) :
    (heap.setIndex entry index).index other =
      if other = entry then index else heap.index other := by
  simp only [setIndex, Function.update_apply]

theorem Indexed.setIndex_zero (indexed : Indexed heap fun entry => entry = del) :
    Sound (heap.setIndex del 0) := by
  obtain ⟨count_le, slot_entry, rest, home⟩ := indexed
  refine ⟨count_le, ?_, rest, ?_⟩ <;> simp only [setIndex, Function.update_apply] <;> grind

end Replaced

theorem removeAt_spec (value : ι → Nat) (sound : Sound heap) (small : heap.max < 1073741824)
    (pos_pos : 1 ≤ pos) (pos_le : pos ≤ heap.count) :
    ∃ del after, heap.removeAt value pos = some (del, after) ∧ heap.list pos = some del ∧
      Sound after ∧ after.count + 1 = heap.count ∧ after.max = heap.max ∧
      (∀ entry, after.index entry = 0 ↔ heap.index entry = 0 ∨ entry = del) ∧
      (Ordered value heap →
        (2 ≤ pos → heap.keyAt value (pos / 2) ≤ heap.keyAt value heap.count) →
        Ordered value after) := by
  obtain ⟨del, del_at, at_pos, index_del, -⟩ := sound.entryAt pos_pos pos_le
  obtain ⟨last, last_at, at_last, index_last, -⟩ :=
    sound.entryAt (show 1 ≤ heap.count by omega) le_rfl
  obtain ⟨sunk, loop, indexed, rearranged, ordered⟩ :=
    heapDownLoop_spec value (sound.replaced pos_pos pos_le at_pos at_last) small pos_pos
      (show (heap.replaced pos last).count < pos + ((heap.replaced pos last).count + 1) by omega)
      (Nat.succ_pos _)
  have count_eq : sunk.count = heap.count - 1 := rearranged.count_eq
  refine ⟨del, sunk.setIndex del 0, ?_, at_pos, ?_, ?_, rearranged.max_eq, ?_, ?_⟩
  · simp only [removeAt, heapDown, del_at, last_at, loop, Option.bind_eq_bind, Option.bind_some]
    rfl
  · exact indexed.setIndex_zero
  · show sunk.count + 1 = heap.count
    omega
  · intro entry
    rw [setIndex_index]
    by_cases is_del : entry = del
    · simp [is_del]
    · rw [if_neg is_del, rearranged.member_iff, replaced_index]
      split
      · subst entry
        simp only [is_del, or_false]
        omega
      · simp [is_del]
  · intro ordered_heap parent_le
    exact ordered (sinksAt_replaced ordered_heap pos_pos at_last parent_le)

theorem heapPop_spec (value : ι → Nat) (sound : Sound heap) (small : heap.max < 1073741824)
    (filled : heap.count ≠ 0) :
    ∃ top after, heap.heapPop value = some (some top, after) ∧ heap.heapTop = some top ∧
      Sound after ∧ after.count + 1 = heap.count ∧ after.max = heap.max ∧
      (∀ entry, after.index entry = 0 ↔ heap.index entry = 0 ∨ entry = top) ∧
      (Ordered value heap → Ordered value after) := by
  obtain ⟨top, after, removed, at_root, sound_after, count_eq, max_eq, member_iff, ordered⟩ :=
    removeAt_spec value sound small le_rfl (show 1 ≤ heap.count by omega)
  refine ⟨top, after, ?_, ?_, sound_after, count_eq, max_eq, member_iff,
    fun ordered_heap => ordered ordered_heap (by omega)⟩
  · rw [heapPop, if_neg (by simpa [heapEmpty] using filled), removed, Option.map_some]
  · rw [heapTop, if_pos (by omega), at_root]

/-- The entry above that of `item` is not greater than the last entry of the heap. -/
def ParentLeLast (value : ι → Nat) (heap : HeapList ι) (item : ι) : Prop :=
  ∀ parent last, heap.list (heap.index item / 2) = some parent →
    heap.list heap.count = some last → value parent ≤ value last

theorem heapDelete_spec (value : ι → Nat) (sound : Sound heap) (small : heap.max < 1073741824)
    (present : heap.index item ≠ 0) :
    ∃ after, heap.heapDelete value item = some (0, after) ∧ Sound after ∧
      after.count + 1 = heap.count ∧ after.max = heap.max ∧
      (∀ entry, after.index entry = 0 ↔ heap.index entry = 0 ∨ entry = item) ∧
      (Ordered value heap → ParentLeLast value heap item → Ordered value after) := by
  obtain ⟨index_le, at_index⟩ := sound.home item id present
  obtain ⟨del, after, removed, at_del, sound_after, count_eq, max_eq, member_iff, ordered⟩ :=
    removeAt_spec value sound small (show 1 ≤ heap.index item by omega) index_le
  obtain rfl : item = del := by simpa [at_index] using at_del
  refine ⟨after, ?_, sound_after, count_eq, max_eq, member_iff, ?_⟩
  · rw [heapDelete, if_neg (by simp only [heapEmpty, decide_eq_true_eq]; omega), if_neg (by omega),
      removed, Option.map_some]
  · intro ordered_heap parent_le
    refine ordered ordered_heap fun index_ge => ?_
    obtain ⟨parent, -, at_parent, -⟩ :=
      sound.slot (heap.index item / 2) (by omega) (by omega)
    obtain ⟨last, -, at_last, -⟩ := sound.slot heap.count (by omega) le_rfl
    rw [keyAt_of_list at_parent, keyAt_of_list at_last]
    exact parent_le parent last at_parent at_last

theorem heapDown_of_le {stray : ι → Prop} (indexed : Indexed heap stray)
    (small : heap.max < 1073741824) (pos_pos : 1 ≤ pos)
    (sons : ∀ son, son / 2 = pos → son ≤ heap.count → heap.keyAt value pos ≤ heap.keyAt value son) :
    heap.heapDown value pos = some heap := by
  unfold heapDown heapDownLoop
  split
  · rename_i pos_le
    simp only [indexed.int32_double small pos_le, Option.bind_eq_bind, Option.bind_some]
    split
    · rfl
    · obtain ⟨son, son_eq, son_half, son_le, -⟩ := minSon_spec value indexed pos_pos (by omega)
      obtain ⟨entry, entry_at, at_pos, -⟩ := indexed.entryAt pos_pos pos_le
      obtain ⟨other, other_at, at_son, -⟩ := indexed.entryAt (show 1 ≤ son by omega) son_le
      have le := sons son son_half son_le
      rw [keyAt_of_list at_pos, keyAt_of_list at_son] at le
      simp only [son_eq, entry_at, other_at, Option.bind_some]
      rw [if_neg (by rw [heapValueCmp_pos]; omega)]
      rfl
  · rfl

theorem heapDelete_unordered (sound : Sound heap) (small : heap.max < 1073741824)
    (ordered : Ordered value heap) (present : heap.index item ≠ 0)
    (greater : ¬ ParentLeLast value heap item) :
    ∃ after, heap.heapDelete value item = some (0, after) ∧ ¬ Ordered value after := by
  unfold ParentLeLast at greater
  push Not at greater
  obtain ⟨parent, last, at_parent, at_last, below⟩ := greater
  obtain ⟨index_le, at_index⟩ := sound.home item id present
  generalize pos_eq : heap.index item = pos at *
  have half_pos : 1 ≤ pos / 2 := by
    by_contra root
    rw [sound.rest (pos / 2) (by omega)] at at_parent
    exact absurd at_parent (by simp)
  have key_parent : heap.keyAt value (pos / 2) = value parent := keyAt_of_list at_parent
  have key_last : heap.keyAt value heap.count = value last := keyAt_of_list at_last
  have pos_lt : pos < heap.count := by
    refine lt_of_le_of_ne index_le fun pos_last => ?_
    have := ordered pos (by omega) index_le
    rw [pos_last, key_last, ← pos_last, key_parent] at this
    omega
  have replaced_keyAt : ∀ place, 1 ≤ place → place < heap.count → place ≠ pos →
      (heap.replaced pos last).keyAt value place = heap.keyAt value place := by
    intro place _ place_lt place_ne
    rw [keyAt, replaced_list, if_neg (by omega), if_neg place_ne, keyAt]
  have replaced_pos : (heap.replaced pos last).keyAt value pos = value last := by
    rw [keyAt, replaced_list, if_neg (by omega), if_pos rfl]
    rfl
  have stays : (heap.replaced pos last).heapDown value pos = some (heap.replaced pos last) := by
    refine heapDown_of_le (sound.replaced (by omega) index_le at_index at_last) small
      (by omega) ?_
    intro son son_half son_le
    have son_le : son ≤ heap.count - 1 := son_le
    rw [replaced_pos, replaced_keyAt son (by omega) (by omega) (by omega)]
    have pos_le := ordered son (by omega) (by omega)
    have parent_le := ordered pos (by omega) index_le
    rw [son_half] at pos_le
    omega
  have at_pos : heap.entryAt pos = some item := by
    rw [HeapList.entryAt, if_pos (index_le.trans sound.count_le), at_index]
  have at_count : heap.entryAt heap.count = some last := by
    rw [HeapList.entryAt, if_pos sound.count_le, at_last]
  refine ⟨(heap.replaced pos last).setIndex item 0, ?_, fun still => ?_⟩
  · simp only [heapDelete, heapEmpty, pos_eq, removeAt, at_pos, at_count, stays,
      Option.bind_eq_bind, Option.bind_some]
    rw [if_neg (by simp only [decide_eq_true_eq]; omega), if_neg (by omega)]
    rfl
  · have le : (heap.replaced pos last).keyAt value (pos / 2) ≤
        (heap.replaced pos last).keyAt value pos :=
      still pos (by omega) (show pos ≤ heap.count - 1 by omega)
    rw [replaced_pos, replaced_keyAt (pos / 2) half_pos (by omega) (by omega)] at le
    omega

end Operations

end Spp.HeapList
