import Mathlib.Logic.Relation
import Spp.MicroThread.HeapOrder

/-!
# Runs of the heap

Runs of `HeapPush`, `HeapPop`, `HeapDelete` and `HeapResize` over entries of fixed values.  As long
as every deleted entry has a parent not greater than the last entry, the heap is ordered.
-/

namespace Spp.HeapList

variable {ι : Type} [DecidableEq ι]

/-- The calls of the heap. -/
inductive Call (ι : Type) where
  | push (item : ι)
  | pop
  | delete (item : ι)
  | resize (size : Int) (allocated : Bool)

/-- A heap and the entries that its callers know to be in it. -/
structure Tracked (ι : Type) where
  heap : HeapList ι
  members : Finset ι

/-- One call, with the entries known to be in the heap by what it returns. -/
def Tracked.step (value : ι → Nat) (state : Tracked ι) : Call ι → Option (Tracked ι)
  | .push item => do
      let (ret, heap) ← state.heap.heapPush value item
      return ⟨heap, if ret = 0 then insert item state.members else state.members⟩
  | .pop => do
      let (top, heap) ← state.heap.heapPop value
      return ⟨heap, match top with
        | some top => state.members.erase top
        | none => state.members⟩
  | .delete item => do
      let (ret, heap) ← state.heap.heapDelete value item
      return ⟨heap, if ret = 0 then state.members.erase item else state.members⟩
  | .resize size allocated => do
      let (_, heap) ← state.heap.heapResize size allocated
      return ⟨heap, state.members⟩

/-- Calls, one after the other. -/
def Tracked.run (value : ι → Nat) (state : Tracked ι) : List (Call ι) → Option (Tracked ι)
  | [] => some state
  | call :: calls => do
      let state ← state.step value call
      state.run value calls

/-- A deleted entry has a parent not greater than the last entry. -/
def Call.Safe (value : ι → Nat) (heap : HeapList ι) : Call ι → Prop
  | .delete item => ParentLeLast value heap item
  | _ => True

instance [Fintype ι] (value : ι → Nat) (heap : HeapList ι) (item : ι) :
    Decidable (ParentLeLast value heap item) := by
  unfold ParentLeLast
  infer_instance

instance [Fintype ι] (value : ι → Nat) (heap : HeapList ι) (call : Call ι) :
    Decidable (Call.Safe value heap call) := by
  cases call <;> unfold Call.Safe <;> infer_instance

/-- The new size and the slot 0 fit an `int`. -/
def Call.InRange : Call ι → Prop
  | .resize size _ => size < 2147483647
  | _ => True

/-- Runs of safe calls from the empty heap made for `max` entries.  Twice the number of entries fits
an `int`. -/
def SafeReaches (value : ι → Nat) (max : Int) : Tracked ι → Prop :=
  Relation.ReflTransGen
    (fun before after => ∃ call, Call.Safe value before.heap call ∧
      before.step value call = some after ∧ after.heap.max < 1073741824)
    ⟨new max, ∅⟩

/-- Every slot but the root holds an entry not below that of its parent. -/
def MinHeap (value : ι → Nat) (heap : HeapList ι) : Prop :=
  ∀ pos, 2 ≤ pos → pos ≤ heap.count → ∃ parent entry,
    heap.list (pos / 2) = some parent ∧ heap.list pos = some entry ∧ value parent ≤ value entry

section Heap

variable {value : ι → Nat} {heap : HeapList ι}

omit [DecidableEq ι] in
theorem Indexed.minHeap_iff (sound : Sound heap) : MinHeap value heap ↔ Ordered value heap := by
  constructor
  · intro min_heap pos pos_ge pos_le
    obtain ⟨parent, entry, at_parent, at_pos, le⟩ := min_heap pos pos_ge pos_le
    rwa [keyAt_of_list at_parent, keyAt_of_list at_pos]
  · intro ordered pos pos_ge pos_le
    obtain ⟨parent, -, at_parent, -⟩ := sound.slot (pos / 2) (by omega) (by omega)
    obtain ⟨entry, -, at_pos, -⟩ := sound.slot pos (by omega) pos_le
    have le := ordered pos pos_ge pos_le
    rw [keyAt_of_list at_parent, keyAt_of_list at_pos] at le
    exact ⟨parent, entry, at_parent, at_pos, le⟩

omit [DecidableEq ι] in
theorem Indexed.heapTop_eq_none (sound : Sound heap) :
    heap.heapTop = none ↔ ∀ entry, heap.index entry = 0 := by
  unfold heapTop
  split
  · obtain ⟨entry, -, at_root, index_eq⟩ := sound.slot 1 le_rfl (by omega)
    rw [at_root]
    exact iff_of_false (by simp) fun all_zero => by simp [all_zero] at index_eq
  · refine iff_of_true rfl fun entry => ?_
    by_contra present
    have := (sound.home entry id present).1
    omega

omit [DecidableEq ι] in
theorem Indexed.heapTop_least (sound : Sound heap) (ordered : Ordered value heap) {top : ι}
    (is_top : heap.heapTop = some top) :
    heap.index top ≠ 0 ∧ ∀ entry, heap.index entry ≠ 0 → value top ≤ value entry := by
  have top_index := sound.index_of_top is_top
  have at_root := (sound.home top id (by omega)).2
  rw [top_index] at at_root
  refine ⟨by omega, fun entry present => ?_⟩
  obtain ⟨index_le, at_index⟩ := sound.home entry id present
  have le := ordered.root_le (show 1 ≤ heap.index entry by omega) index_le
  rwa [keyAt_of_list at_root, keyAt_of_list at_index] at le

end Heap

/-! ## What runs keep -/

/-- A sound heap with the entries known to be in it. -/
structure Tracked.Valid (state : Tracked ι) : Prop where
  sound : Sound state.heap
  small : state.heap.max < 1073741824
  mem_iff : ∀ entry, entry ∈ state.members ↔ state.heap.index entry ≠ 0

namespace Tracked

variable {value : ι → Nat} {state : Tracked ι}

omit [DecidableEq ι] in
theorem valid_new {max : Int} (small : max < 1073741824) : Valid (⟨new max, ∅⟩ : Tracked ι) :=
  ⟨sound_new max, new_max_lt small, fun entry =>
    iff_of_false (Finset.notMem_empty entry) (not_not_intro rfl)⟩

theorem Valid.push (value : ι → Nat) (valid : state.Valid) (item : ι) :
    ∃ after, state.step value (.push item) = some after ∧ after.Valid ∧
      (Ordered value state.heap → Ordered value after.heap) := by
  by_cases full : state.heap.count < state.heap.max
  · by_cases fresh : state.heap.index item = 0
    · obtain ⟨heap, pushed, sound, -, max_eq, member_iff, ordered⟩ :=
        heapPush_spec value valid.sound full fresh
      refine ⟨⟨heap, insert item state.members⟩, ?_,
        ⟨sound, max_eq.trans_lt valid.small, fun entry => ?_⟩, ordered⟩
      · simp only [step, pushed, Option.bind_eq_bind, Option.bind_some, if_pos]
        rfl
      · have := member_iff entry
        have := valid.mem_iff entry
        simp only [Finset.mem_insert]
        tauto
    · refine ⟨state, ?_, valid, id⟩
      simp [step, heapPush, heapFull, Nat.not_le.2 full, fresh]
  · refine ⟨state, ?_, valid, id⟩
    simp [step, heapPush, heapFull, Nat.not_lt.1 full]

theorem Valid.erase (valid : state.Valid) {heap : HeapList ι} {item : ι} (sound : Sound heap)
    (max_eq : heap.max = state.heap.max)
    (member_iff : ∀ entry, heap.index entry = 0 ↔ state.heap.index entry = 0 ∨ entry = item) :
    Valid ⟨heap, state.members.erase item⟩ := by
  refine ⟨sound, max_eq.trans_lt valid.small, fun entry => ?_⟩
  have := member_iff entry
  have := valid.mem_iff entry
  simp only [Finset.mem_erase]
  tauto

theorem Valid.pop (value : ι → Nat) (valid : state.Valid) :
    ∃ after, state.step value .pop = some after ∧ after.Valid ∧
      (Ordered value state.heap → Ordered value after.heap) := by
  by_cases empty : state.heap.count = 0
  · refine ⟨state, ?_, valid, id⟩
    simp [step, heapPop, heapEmpty, empty]
  · obtain ⟨top, heap, popped, -, sound, -, max_eq, member_iff, ordered⟩ :=
      heapPop_spec value valid.sound valid.small empty
    refine ⟨⟨heap, state.members.erase top⟩, ?_, valid.erase sound max_eq member_iff, ordered⟩
    simp only [step, popped, Option.bind_eq_bind, Option.bind_some]
    rfl

theorem Valid.delete (value : ι → Nat) (valid : state.Valid) (item : ι) :
    ∃ after, state.step value (.delete item) = some after ∧ after.Valid ∧
      (Ordered value state.heap → ParentLeLast value state.heap item →
        Ordered value after.heap) := by
  by_cases present : state.heap.index item = 0
  · refine ⟨state, ?_, valid, fun ordered _ => ordered⟩
    by_cases empty : state.heap.count = 0
    · simp [step, heapDelete, heapEmpty, empty]
    · simp [step, heapDelete, heapEmpty, empty, present]
  · obtain ⟨heap, deleted, sound, -, max_eq, member_iff, ordered⟩ :=
      heapDelete_spec value valid.sound valid.small present
    refine ⟨⟨heap, state.members.erase item⟩, ?_, valid.erase sound max_eq member_iff, ordered⟩
    simp only [step, deleted, Option.bind_eq_bind, Option.bind_some, if_pos]
    rfl

theorem Valid.resize (valid : state.Valid) {size : Int} {allocated : Bool} {after : Tracked ι}
    (returns : state.step value (.resize size allocated) = some after)
    (small : after.heap.max < 1073741824) :
    after.Valid ∧ (Ordered value state.heap → Ordered value after.heap) := by
  simp only [step, heapResize] at returns
  split at returns
  · obtain rfl : state = after := by simpa using returns
    exact ⟨valid, id⟩
  · cases sum : int32 (size + 1) with
    | none => simp [sum] at returns
    | some _ =>
        simp only [sum, Option.bind_eq_bind, Option.bind_some] at returns
        split at returns
        · obtain rfl := Option.some.inj returns
          have count_le := valid.sound.count_le
          exact ⟨⟨⟨show state.heap.count ≤ size.toNat by omega, valid.sound.slot,
            valid.sound.rest, valid.sound.home⟩, small, valid.mem_iff⟩, id⟩
        · obtain rfl : state = after := by simpa using returns
          exact ⟨valid, id⟩

theorem Valid.step (valid : state.Valid) {call : Call ι} {after : Tracked ι}
    (returns : state.step value call = some after) (small : after.heap.max < 1073741824) :
    after.Valid ∧ (Ordered value state.heap → Call.Safe value state.heap call →
      Ordered value after.heap) := by
  cases call with
  | push item =>
      obtain ⟨next, stepped, next_valid, ordered⟩ := valid.push value item
      obtain rfl := Option.some.inj (stepped.symm.trans returns)
      exact ⟨next_valid, fun before _ => ordered before⟩
  | pop =>
      obtain ⟨next, stepped, next_valid, ordered⟩ := valid.pop value
      obtain rfl := Option.some.inj (stepped.symm.trans returns)
      exact ⟨next_valid, fun before _ => ordered before⟩
  | delete item =>
      obtain ⟨next, stepped, next_valid, ordered⟩ := valid.delete value item
      obtain rfl := Option.some.inj (stepped.symm.trans returns)
      exact ⟨next_valid, ordered⟩
  | resize size allocated =>
      obtain ⟨next_valid, ordered⟩ := valid.resize returns small
      exact ⟨next_valid, fun before _ => ordered before⟩

theorem Valid.step_isSome (value : ι → Nat) (valid : state.Valid) {call : Call ι}
    (range : call.InRange) :
    (state.step value call).isSome := by
  cases call with
  | push item =>
      obtain ⟨next, stepped, -⟩ := valid.push value item
      simp [stepped]
  | pop =>
      obtain ⟨next, stepped, -⟩ := valid.pop value
      simp [stepped]
  | delete item =>
      obtain ⟨next, stepped, -⟩ := valid.delete value item
      simp [stepped]
  | resize size allocated =>
      have range : size < 2147483647 := range
      simp only [Tracked.step, heapResize]
      split
      · rfl
      · rw [int32, if_pos ⟨by omega, by omega⟩]
        cases allocated <;> rfl

end Tracked

section Runs

variable {value : ι → Nat} {max : Int} {state : Tracked ι}

theorem SafeReaches.valid (small : max < 1073741824) (reach : SafeReaches value max state) :
    state.Valid ∧ Ordered value state.heap := by
  induction reach with
  | refl =>
      refine ⟨Tracked.valid_new small, fun pos pos_ge pos_le => ?_⟩
      have pos_le : pos ≤ 0 := pos_le
      omega
  | tail _ step induction =>
      obtain ⟨valid, ordered⟩ := induction
      obtain ⟨call, safe, returns, small⟩ := step
      obtain ⟨next_valid, next_ordered⟩ := valid.step returns small
      exact ⟨next_valid, next_ordered ordered safe⟩

theorem SafeReaches.call (reach : SafeReaches value max state) (call : Call ι)
    (safe : Call.Safe value state.heap call) (returns : (state.step value call).isSome)
    (small : ((state.step value call).get returns).heap.max < 1073741824) :
    SafeReaches value max ((state.step value call).get returns) :=
  Relation.ReflTransGen.tail reach ⟨call, safe, (Option.some_get returns).symm, small⟩

/-- In every run of safe calls the heap is ordered, its top is a least entry of those in it, and
further calls return.  A deletion then keeps the order exactly if it is safe. -/
theorem safeReaches_minHeap (small : max < 1073741824) (reach : SafeReaches value max state) :
    MinHeap value state.heap ∧
    (state.heap.heapTop = none ↔ state.members = ∅) ∧
    (∀ top, state.heap.heapTop = some top →
      top ∈ state.members ∧ ∀ entry ∈ state.members, value top ≤ value entry) ∧
    (∀ call : Call ι, call.InRange → (state.step value call).isSome) ∧
    ∀ item after, item ∈ state.members → state.step value (.delete item) = some after →
      (MinHeap value after.heap ↔ ParentLeLast value state.heap item) := by
  obtain ⟨valid, ordered⟩ := reach.valid small
  refine ⟨valid.sound.minHeap_iff.2 ordered, ?_, ?_, fun call => valid.step_isSome value, ?_⟩
  · rw [valid.sound.heapTop_eq_none, Finset.eq_empty_iff_forall_notMem]
    refine forall_congr' fun entry => ?_
    rw [valid.mem_iff, not_not]
  · intro top is_top
    obtain ⟨present, least⟩ := valid.sound.heapTop_least ordered is_top
    exact ⟨(valid.mem_iff top).2 present,
      fun entry member => least entry ((valid.mem_iff entry).1 member)⟩
  · intro item after member returns
    obtain ⟨next, stepped, next_valid, next_ordered⟩ := valid.delete value item
    obtain rfl := Option.some.inj (stepped.symm.trans returns)
    rw [next_valid.sound.minHeap_iff]
    refine ⟨fun still => ?_, next_ordered ordered⟩
    by_contra greater
    obtain ⟨heap, deleted, unordered⟩ :=
      heapDelete_unordered valid.sound valid.small ordered ((valid.mem_iff item).1 member) greater
    simp only [Tracked.step, deleted, Option.bind_eq_bind, Option.bind_some] at returns
    obtain rfl := Option.some.inj returns
    exact unordered still

end Runs

/-- The entries are their own values; the entry deleted has the root as parent. -/
theorem safeReaches_minHeap_sample :
    ∃ state : Tracked (Fin 8), SafeReaches Fin.val 5 state ∧ state.members = {1, 3} ∧
      MinHeap Fin.val state.heap ∧ ∀ entry ∈ state.members, (1 : Fin 8).val ≤ entry.val := by
  have start : SafeReaches Fin.val 5 (⟨new 5, ∅⟩ : Tracked (Fin 8)) := Relation.ReflTransGen.refl
  have first := start.call (.push 3) trivial (by decide) (by decide)
  have second := first.call (.push 2) trivial (by decide) (by decide)
  have third := second.call (.push 1) trivial (by decide) (by decide)
  have fourth := third.call (.delete 2) (by decide) (by decide) (by decide)
  obtain ⟨min_heap, -, least, -⟩ := safeReaches_minHeap (by decide) fourth
  exact ⟨_, fourth, by decide, min_heap, (least 1 (by decide)).2⟩

/-- Seven entries pushed in the order of their slots, and that of slot 4 deleted. -/
def deletingCalls : List (Call (Fin 8)) :=
  [.push 1, .push 4, .push 2, .push 5, .push 7, .push 6, .push 3, .delete 5]

/-- The last entry, 3, takes the place of the deleted one below 4.  Two calls of `HeapPop` later 4
is the top, though 3 is in the heap. -/
theorem run_deleting :
    ∃ deleted popped : Tracked (Fin 8),
      Tracked.run Fin.val ⟨new 8, ∅⟩ deletingCalls = some deleted ∧
      deleted.heap.list 2 = some 4 ∧ deleted.heap.list 4 = some 3 ∧
      ¬ MinHeap Fin.val deleted.heap ∧
      Tracked.run Fin.val ⟨new 8, ∅⟩ (deletingCalls ++ [.pop, .pop]) = some popped ∧
      popped.heap.heapTop = some 4 ∧ 3 ∈ popped.members := by
  refine ⟨(Tracked.run Fin.val ⟨new 8, ∅⟩ deletingCalls).get (by decide),
    (Tracked.run Fin.val ⟨new 8, ∅⟩ (deletingCalls ++ [.pop, .pop])).get (by decide),
    (Option.some_get _).symm, by decide, by decide, ?_, (Option.some_get _).symm,
    by decide, by decide⟩
  intro min_heap
  obtain ⟨parent, entry, at_parent, at_entry, le⟩ := min_heap 4 (by decide) (by decide)
  revert parent entry
  decide

end Spp.HeapList
