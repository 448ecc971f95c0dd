import Mathlib.Data.List.Nodup
import Spp.MicroThread.HeapRun

/-!
# Indices of the heap

The order of the heap depends on what its callers delete; its indices do not: in any run the slots
in use hold distinct entries, and the index of an entry is its slot.
-/

namespace Spp.HeapList

variable {ι : Type} [DecidableEq ι]

/-- The entries in the slots in use, in the order of the slots. -/
def entries (heap : HeapList ι) : List ι :=
  (List.range heap.count).filterMap fun slot => heap.list (slot + 1)

/-- The slots in use hold distinct entries, and `_index` is the slot of each entry. -/
structure Consistent (heap : HeapList ι) : Prop where
  filled : ∀ pos, 1 ≤ pos → pos ≤ heap.count → ∃ entry, heap.list pos = some entry
  distinct : ∀ left right, 1 ≤ left → left ≤ heap.count → 1 ≤ right → right ≤ heap.count →
    heap.list left = heap.list right → left = right
  index_iff : ∀ entry pos, 1 ≤ pos →
    (heap.index entry = pos ↔ pos ≤ heap.count ∧ heap.list pos = some entry)
  zero_iff : ∀ entry, heap.index entry = 0 ↔
    ∀ pos, 1 ≤ pos → pos ≤ heap.count → heap.list pos ≠ some entry

/-- The heap `after` is `heap` without one occurrence of `entry`, in no particular order. -/
structure Removes (heap : HeapList ι) (entry : ι) (after : HeapList ι) : Prop where
  perm : List.Perm heap.entries (entry :: after.entries)
  index_eq : after.index entry = 0
  other_iff : ∀ other, other ≠ entry → (after.index other = 0 ↔ heap.index other = 0)

section Entries

variable {heap : HeapList ι}

omit [DecidableEq ι]

theorem Indexed.consistent (sound : Sound heap) : Consistent heap := by
  have index_eq : ∀ pos entry, 1 ≤ pos → heap.list pos = some entry → heap.index entry = pos :=
    fun _ _ => sound.index_eq
  obtain ⟨-, slot, -, home⟩ := sound
  constructor <;> grind

theorem Indexed.mem_entries (sound : Sound heap) {entry : ι} :
    entry ∈ heap.entries ↔ heap.index entry ≠ 0 := by
  simp only [entries, List.mem_filterMap, List.mem_range]
  constructor
  · rintro ⟨slot, _, at_slot⟩
    have index_eq := sound.index_eq (Nat.succ_pos slot) at_slot
    omega
  · intro present
    obtain ⟨index_le, at_index⟩ := sound.home entry id present
    refine ⟨heap.index entry - 1, by omega, ?_⟩
    rw [Nat.sub_add_cancel (Nat.pos_of_ne_zero present)]
    exact at_index

theorem Indexed.nodup_entries (sound : Sound heap) : heap.entries.Nodup := by
  refine List.Nodup.filterMap ?_ List.nodup_range
  intro left right entry at_left at_right
  have index_left := sound.index_eq (Nat.succ_pos left) at_left
  have index_right := sound.index_eq (Nat.succ_pos right) at_right
  omega

theorem Indexed.removes {after : HeapList ι} {entry : ι} (sound : Sound heap) (left : Sound after)
    (present : heap.index entry ≠ 0)
    (member_iff : ∀ other, after.index other = 0 ↔ heap.index other = 0 ∨ other = entry) :
    Removes heap entry after := by
  have gone : after.index entry = 0 := (member_iff entry).mpr (.inr rfl)
  refine ⟨?_, gone, fun other different => ?_⟩
  · apply (List.perm_ext_iff_of_nodup sound.nodup_entries ?_).mpr
    · intro other
      rw [List.mem_cons, sound.mem_entries, left.mem_entries]
      grind
    · refine List.nodup_cons.mpr ⟨?_, left.nodup_entries⟩
      rw [left.mem_entries, not_not]
      exact gone
  · have other_iff := member_iff other
    tauto

end Entries

/-- Runs from the empty heap made for `max` entries; the values may change between the calls, and
twice the number of entries fits an `int`. -/
def Reaches (max : Int) : Tracked ι → Prop :=
  Relation.ReflTransGen
    (fun before after => after.heap.max < 1073741824 ∧
      ∃ value call, before.step value call = some after)
    ⟨new max, ∅⟩

theorem Reaches.valid {max : Int} (small : max < 1073741824) {state : Tracked ι}
    (reach : Reaches max state) : state.Valid := by
  induction reach with
  | refl => exact Tracked.valid_new small
  | tail _ step induction =>
      obtain ⟨small, value, call, returns⟩ := step
      exact (induction.step returns small).1

theorem Reaches.call {max : Int} {state : Tracked ι} (reach : Reaches max state) {value : ι → Nat}
    (call : Call ι) (returns : (state.step value call).isSome)
    (small : ((state.step value call).get returns).heap.max < 1073741824) :
    Reaches max ((state.step value call).get returns) :=
  Relation.ReflTransGen.tail reach ⟨small, value, call, (Option.some_get returns).symm⟩

section Calls

variable {heap : HeapList ι}

/-- `HeapPush` adds its entry or changes nothing: a removal read backwards. -/
theorem Indexed.push_removes (sound : Sound heap) (value : ι → Nat) (item : ι) :
    ∃ ret after, heap.heapPush value item = some (ret, after) ∧
      (ret = 0 ∧ Removes after item heap ∨ (ret = -1 ∨ ret = -2) ∧ after = heap) := by
  by_cases room : heap.count < heap.max
  · have not_full : ¬ heap.heapFull := by simpa [heapFull] using room
    by_cases fresh : heap.index item = 0
    · obtain ⟨after, pushed, sound_after, -, -, member_iff, -⟩ :=
        heapPush_spec value sound room fresh
      refine ⟨0, after, pushed, .inl ⟨rfl, sound_after.removes sound ?_ ?_⟩⟩ <;> grind
    · refine ⟨-2, heap, ?_, .inr ⟨.inr rfl, rfl⟩⟩
      rw [heapPush, if_neg not_full, if_pos fresh]
  · refine ⟨-1, heap, ?_, .inr ⟨.inl rfl, rfl⟩⟩
    rw [heapPush, if_pos (by simpa [heapFull] using room)]

theorem Indexed.delete_removes (sound : Sound heap) (small : heap.max < 1073741824)
    (value : ι → Nat) (item : ι) :
    ∃ ret after, heap.heapDelete value item = some (ret, after) ∧
      (ret = 0 ∧ Removes heap item after ∨ (ret = -1 ∨ ret = -2) ∧ after = heap) := by
  by_cases empty : heap.count = 0
  · refine ⟨-1, heap, ?_, .inr ⟨.inl rfl, rfl⟩⟩
    rw [heapDelete, if_pos (by simpa [heapEmpty] using empty)]
  · by_cases present : heap.index item = 0
    · refine ⟨-2, heap, ?_, .inr ⟨.inr rfl, rfl⟩⟩
      rw [heapDelete, if_neg (by simpa [heapEmpty] using empty), if_pos (Or.inr present)]
    · obtain ⟨after, deleted, sound_after, -, -, member_iff, -⟩ :=
        heapDelete_spec value sound small present
      exact ⟨0, after, deleted, .inl ⟨rfl, sound.removes sound_after present member_iff⟩⟩

theorem Indexed.pop_removes (sound : Sound heap) (small : heap.max < 1073741824)
    (value : ι → Nat) :
    ∃ top after, heap.heapPop value = some (top, after) ∧
      ((∃ entry, top = some entry ∧ heap.heapTop = some entry ∧ Removes heap entry after) ∨
        top = none ∧ heap.entries = [] ∧ after = heap) := by
  by_cases empty : heap.count = 0
  · refine ⟨none, heap, ?_, .inr ⟨rfl, ?_, rfl⟩⟩
    · rw [heapPop, if_pos (by simpa [heapEmpty] using empty)]
    · rw [entries, empty]
      rfl
  · obtain ⟨top, after, popped, is_top, sound_after, -, -, member_iff, -⟩ :=
      heapPop_spec value sound small empty
    have top_index := sound.index_of_top is_top
    have removed := sound.removes sound_after (by omega) member_iff
    exact ⟨some top, after, popped, .inl ⟨top, rfl, is_top, removed⟩⟩

end Calls

/-- In every state of a run the indices are consistent and no entry is lost; a push adds its entry
or changes nothing, a deletion removes its entry or changes nothing, and a pop removes the top of a
heap that is not empty. -/
theorem reaches_consistent {max : Int} (small : max < 1073741824) {state : Tracked ι}
    (reach : Reaches max state) (value : ι → Nat) :
    Consistent state.heap ∧
    (∀ entry, entry ∈ state.members ↔ entry ∈ state.heap.entries) ∧
    (∀ item, ∃ ret after, state.heap.heapPush value item = some (ret, after) ∧
      (ret = 0 ∧ Removes after item state.heap ∨ (ret = -1 ∨ ret = -2) ∧ after = state.heap)) ∧
    (∀ item, ∃ ret after, state.heap.heapDelete value item = some (ret, after) ∧
      (ret = 0 ∧ Removes state.heap item after ∨ (ret = -1 ∨ ret = -2) ∧ after = state.heap)) ∧
    ∃ top after, state.heap.heapPop value = some (top, after) ∧
      ((∃ entry, top = some entry ∧ state.heap.heapTop = some entry ∧
          Removes state.heap entry after) ∨
        top = none ∧ state.heap.entries = [] ∧ after = state.heap) := by
  have valid := reach.valid small
  have sound := valid.sound
  refine ⟨sound.consistent, ?_, sound.push_removes value, sound.delete_removes valid.small value,
    sound.pop_removes valid.small value⟩
  intro entry
  rw [valid.mem_iff, sound.mem_entries]

/-- The last of three entries is deleted, and the remaining two are in the slots 1 and 2. -/
theorem reaches_consistent_sample :
    ∃ state : Tracked (Fin 8), Reaches 5 state ∧ state.heap.entries = [1, 3] ∧
      Consistent state.heap := by
  have start : Reaches 5 (⟨new 5, ∅⟩ : Tracked (Fin 8)) := Relation.ReflTransGen.refl
  have first := @Reaches.call _ _ _ _ start Fin.val (.push 1) (by decide) (by decide)
  have second := @Reaches.call _ _ _ _ first Fin.val (.push 3) (by decide) (by decide)
  have third := @Reaches.call _ _ _ _ second Fin.val (.push 5) (by decide) (by decide)
  have fourth := @Reaches.call _ _ _ _ third Fin.val (.delete 5) (by decide) (by decide)
  exact ⟨_, fourth, by decide, (reaches_consistent (by decide) fourth Fin.val).1⟩

end Spp.HeapList
