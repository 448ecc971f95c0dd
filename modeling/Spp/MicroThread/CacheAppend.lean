import Spp.MicroThread.CacheContent

/-!
# Appending to a cache

`cache_append_data` fills the last block and takes new blocks for the rest, or it leaves the cache
as it is if there are not enough blocks.
-/

namespace Spp.TRWCache

open TSkBuffMng

variable {ι : Type} [DecidableEq ι] {pool after : TSkBuffMng ι} {list used keep : List ι} {ptr : ι}
  {data : List UInt8}

/-! ## New blocks -/

variable {block : TSkBuffer}

theorem allocated_fill {between : TSkBuffMng ι} (allocated : Allocated pool list ptr between) :
    ∃ item, between.block ptr = some item ∧ 0 < item.size ∧
      between.capacity + item.size = pool.capacity ∧ ∀ data : List UInt8, data.length ≤ item.size →
        ∃ memory,
        item.memory.write item.head data = some memory ∧
        (between.setBlock ptr { item with memory, dataLen := data.length }).Sound (list ++ [ptr]) ∧
        (between.setBlock ptr { item with memory, dataLen := data.length }).content [ptr] = data ∧
        (between.setBlock ptr { item with memory, dataLen := data.length }).capacity =
          between.capacity ∧
        ∀ other ∈ list,
          (between.setBlock ptr { item with memory, dataLen := data.length }).block other =
          pool.block other := by
  obtain ⟨item, found, empty, capacity_eq⟩ := allocated.block
  refine ⟨item, found, empty.size_pos, capacity_eq, fun data le => ?_⟩
  have fin_eq := empty.fin_eq
  have data_eq := empty.data_eq
  have dataLen_eq := empty.dataLen_eq
  obtain ⟨memory, writes, fits, content_eq⟩ := empty.toFits.extend (show
    data.length ≤ item.fin - item.data - item.dataLen by omega)
  have no_content : item.content = [] := by
    rw [TSkBuffer.content, dataLen_eq, slice_zero]
  rw [data_eq, dataLen_eq, Nat.add_zero] at writes
  rw [no_content, List.nil_append] at content_eq
  simp only [dataLen_eq, Nat.zero_add] at fits content_eq
  have is_used : ptr ∈ list ++ [ptr] := List.mem_append_right _ List.mem_cons_self
  refine ⟨memory, writes, allocated.sound.setBlock is_used fits, ?_,
    allocated.sound.capacity_setBlock is_used _, fun other member => ?_⟩
  · rw [content_cons (setBlock_block ..), content_eq, content_nil, List.append_nil]
  · have not_ptr : other ≠ ptr := by
      rintro rfl
      exact allocated.notMem member
    rw [setBlock_of_ne _ _ not_ptr, allocated.same other member]

/-- The loop of `cache_append_data` fills new blocks with the bytes, or gives all of them back. -/
theorem appendLoop_eq {rounds : Nat} (sound : pool.Sound (used ++ keep))
    (enough : data.length < rounds) :
    (∃ after, appendLoop rounds pool keep data = some (none, after) ∧ after.Sound used ∧
      (∀ ptr ∈ used, after.block ptr = pool.block ptr) ∧
      pool.capacity < data.length) ∨
    ∃ new after, appendLoop rounds pool keep data = some (some (keep ++ new), after) ∧
      after.Sound (used ++ (keep ++ new)) ∧
      (∀ ptr ∈ used ++ keep, after.block ptr = pool.block ptr) ∧ after.content new = data := by
  induction rounds generalizing pool keep data with
  | zero => exact absurd enough (Nat.not_lt_zero _)
  | succ rounds induction =>
      rw [appendLoop]
      by_cases empty : data.length > 0
      · rw [if_pos empty]
        rcases sound.allocSkBuffer with ⟨no_blocks, allocates⟩ | ⟨ptr, between, allocates,
          allocated⟩
        · obtain ⟨after, frees, sound_after, same⟩ := sound.freeAll
          refine Or.inl ⟨after, ?_, sound_after, same, by omega⟩
          simp only [allocates, Option.bind_eq_bind, Option.bind_some, frees]
          rfl
        · obtain ⟨item, found, size_pos, capacity_eq, fill⟩ := allocated_fill allocated
          let copied := if data.length ≤ item.size then data.length else item.size
          have copied_le : copied ≤ data.length ∧ copied ≤ item.size ∧ 0 < copied := by
            simp only [copied]
            split <;> omega
          have length_take : (data.take copied).length = copied :=
            List.length_take_of_le copied_le.1
          obtain ⟨memory, writes, sound_after, content_eq, same_capacity, same⟩ :=
            fill (data.take copied) (by rw [length_take]; exact copied_le.2.1)
          rw [length_take] at sound_after content_eq same_capacity same
          rw [List.append_assoc] at sound_after
          simp only [allocates, Option.bind_eq_bind, Option.bind_some, found]
          rw [show item.memory.write item.head
            (data.take (if data.length ≤ item.size then data.length
            else item.size)) = some memory from writes]
          simp only [Option.bind_some]
          by_cases last : data.length ≤ item.size
          · rw [if_pos last]
            refine Or.inr ⟨[ptr], _, rfl, sound_after, same, content_eq.trans ?_⟩
            simp only [copied, if_pos last, List.take_length]
          · rw [if_neg last]
            have shorter : (data.drop copied).length < rounds := by
              rw [List.length_drop]
              omega
            rcases induction sound_after shorter with
              ⟨after, loops, sound_used, same_used, few⟩ | ⟨new, after, loops, sound_new, same_new,
                content_new⟩
            · refine Or.inl ⟨after, loops, sound_used, fun other member => ?_, ?_⟩
              · rw [same_used other member, same other (List.mem_append_left _ member)]
              · have copied_eq : copied = item.size := if_neg last
                rw [same_capacity, List.length_drop] at few
                omega
            · rw [← List.append_cons keep ptr new] at loops sound_new
              refine Or.inr ⟨ptr :: new, after, loops, sound_new, fun other member => ?_, ?_⟩
              · rw [same_new other
                  (by rw [← List.append_assoc]; exact List.mem_append_left _ member),
                  same other member]
              · have same_ptr := same_new ptr (by simp)
                have split : after.content (ptr :: new) =
                  after.content [ptr] ++ after.content new :=
                  content_append after [ptr] new
                rw [split, content_new, content_congr (fun other is_ptr => by
                  cases List.mem_singleton.1 is_ptr
                  exact same_ptr), content_eq, List.take_append_drop]
      · rw [if_neg empty]
        obtain rfl : data = [] := List.eq_nil_of_length_eq_zero (by omega)
        refine Or.inr ⟨[], pool, by rw [List.append_nil], ?_, fun _ _ => rfl, rfl⟩
        rw [List.append_nil]
        exact sound

/-! ## The last block -/

/-- Bytes were added to one block. -/
structure Extends (pool : TSkBuffMng ι) (used : List ι) (ptr : ι) (data : List UInt8)
    (after : TSkBuffMng ι) : Prop where
  sound : after.Sound used
  content_eq : after.content [ptr] = pool.content [ptr] ++ data
  same : ∀ other, other ≠ ptr → after.block other = pool.block other

theorem fillTail_eq (sound : pool.Sound used) (member : ptr ∈ used)
    (found : pool.block ptr = some block)
    (room : data.length ≤ block.fin - block.data - block.dataLen) :
    ∃ after, fillTail pool (some ptr) data = some after ∧ Extends pool used ptr data after := by
  obtain ⟨old, old_found, fits⟩ := sound.fits ptr member
  cases found.symm.trans old_found
  obtain ⟨memory, writes, fits, content_eq⟩ := fits.extend room
  refine ⟨_, ?_, sound.setBlock member fits, ?_, fun other ne => setBlock_of_ne _ _ ne⟩
  · simp only [fillTail, found, Option.bind_eq_bind, Option.bind_some, writes]
    rfl
  · rw [content_cons (setBlock_block ..), content_cons found, content_eq, content_nil, content_nil,
      List.append_nil, List.append_nil]

theorem fillRemain_eq (sound : pool.Sound used) (member : ptr ∈ used)
    (found : pool.block ptr = some block)
    (room : data.length ≤ block.fin - block.data - block.dataLen) :
    ∃ after, fillRemain pool (some ptr) data = some after ∧ Extends pool used ptr data after := by
  rw [fillRemain]
  by_cases some_bytes : data.length > 0
  · rw [if_pos some_bytes]
    exact fillTail_eq sound member found room
  · rw [if_neg some_bytes]
    obtain rfl : data = [] := List.eq_nil_of_length_eq_zero (by omega)
    exact ⟨pool, rfl, sound, (List.append_nil _).symm, fun _ _ => rfl⟩

omit [DecidableEq ι] in
theorem Extends.content {front new : List ι} (extended : Extends pool used ptr data after)
    (nodup : (front ++ ptr :: new).Nodup) :
    after.content (front ++ ptr :: new) =
      pool.content (front ++ [ptr]) ++ data ++ pool.content new := by
  have notMem := (List.nodup_middle.1 nodup).notMem
  have same_of : ∀ part : List ι, (∀ other ∈ part, other ∈ front ++ new) →
      after.content part = pool.content part := fun part sub => content_congr fun other member =>
    extended.same other (by rintro rfl; exact notMem (sub other member))
  have split : after.content (front ++ ptr :: new) =
      after.content front ++ (after.content [ptr] ++ after.content new) := by
    rw [content_append, ← content_append after [ptr] new]
    rfl
  rw [split, extended.content_eq, same_of front fun _ => List.mem_append_left _,
    same_of new fun _ => List.mem_append_right _, content_append]
  simp only [List.append_assoc]

omit [DecidableEq ι] in
theorem remain_eq (found : pool.block ptr = some block) :
    remain pool (some ptr) = some (block.fin - block.data - block.dataLen) := by
  simp only [remain, found, Option.bind_eq_bind, Option.bind_some]
  show some _ = some _
  congr 1
  split <;> omega

/-- `cache_append_data` adds the bytes at the end of the content, or it changes nothing because
there are not enough blocks. -/
theorem cacheAppendData_eq {cache : TRWCache ι} (sound : pool.Sound cache.list)
    (nonempty : data ≠ []) :
    (∃ after, cache.cacheAppendData pool data = some (-2, cache, after) ∧ after.Sound cache.list ∧
      after.content cache.list = pool.content cache.list ∧
      pool.capacity < data.length) ∨
    ∃ new after, cache.cacheAppendData pool data = some (i32 data.length,
        ⟨cache.list ++ new, u32 (cache.len + data.length), cache.count + new.length⟩, after) ∧
      after.Sound (cache.list ++ new) ∧
      after.content (cache.list ++ new) = pool.content cache.list ++ data := by
  have some_bytes : ¬ data.length = 0 := fun zero => nonempty (List.eq_nil_of_length_eq_zero zero)
  rw [cacheAppendData, if_neg some_bytes]
  rcases List.eq_nil_or_concat cache.list with no_blocks | ⟨front, ptr, list_eq⟩
  · rw [no_blocks] at sound
    have sound_none : pool.Sound (([] : List ι) ++ ([] : List ι)) := sound
    simp only [no_blocks, List.getLast?_nil, remain, Option.bind_eq_bind, Option.bind_some, ne_eq,
      not_true, false_and, if_false, List.drop_zero, List.nil_append, content_nil, true_and]
    rcases appendLoop_eq sound_none (Nat.lt_succ_self data.length) with
      ⟨after, loops, sound_after, -, few⟩ | ⟨new, after, loops, sound_after, -, content_eq⟩
    · exact Or.inl ⟨after, by rw [loops]; rfl, sound_after, few⟩
    · exact Or.inr ⟨new, after, by rw [loops]; rfl, sound_after, content_eq⟩
  · rw [List.concat_eq_append] at list_eq
    have member : ptr ∈ cache.list := by simp [list_eq]
    have last_eq : cache.list.getLast? = some ptr := by rw [list_eq, List.getLast?_concat]
    obtain ⟨block, found, -⟩ := sound.fits ptr member
    have nodup := (List.nodup_append.1 sound.nodup).1
    let room := block.fin - block.data - block.dataLen
    simp only [last_eq, remain_eq found, Option.bind_eq_bind, Option.bind_some, ne_eq,
      reduceCtorEq, not_false_eq_true, true_and]
    by_cases fits : room ≥ data.length
    · rw [if_pos fits]
      obtain ⟨after, fills, extended⟩ := fillTail_eq sound member found fits
      refine Or.inr ⟨[], after, by rw [fills, List.append_nil]; rfl, ?_, ?_⟩
      · rw [List.append_nil]
        exact extended.sound
      · rw [list_eq] at nodup
        rw [List.append_nil, list_eq, extended.content nodup, content_nil, List.append_nil]
    · rw [if_neg fits]
      have sound_none : pool.Sound (cache.list ++ ([] : List ι)) := by
        rw [List.append_nil]
        exact sound
      have length_take : (data.take room).length = room :=
        List.length_take_of_le (not_le.1 fits).le
      rcases appendLoop_eq sound_none (Nat.lt_succ_self (data.drop room).length) with
        ⟨after, loops, sound_after, same, few⟩ | ⟨new, after, loops, sound_after, same, content_eq⟩
      · refine Or.inl ⟨after, by rw [loops]; rfl, sound_after, content_congr same, ?_⟩
        rw [List.length_drop] at few
        omega
      · rw [List.nil_append] at loops sound_after
        rw [List.append_nil] at same
        have still : after.block ptr = some block := (same ptr member).trans found
        obtain ⟨last, fills, extended⟩ :=
          fillRemain_eq sound_after (List.mem_append_left new member)
          still (length_take.le : (data.take room).length ≤ room)
        refine Or.inr ⟨new, last, ?_, extended.sound, ?_⟩
        · rw [loops]
          simp only [Option.bind_some]
          rw [show fillRemain after (some ptr)
            (data.take (block.fin - block.data - block.dataLen)) =
            some last from fills]
          rfl
        · have nodup_new := (List.nodup_append.1 sound_after.nodup).1
          have shape : cache.list ++ new = front ++ ptr :: new := by
            rw [list_eq, List.append_assoc, List.singleton_append]
          rw [shape] at nodup_new
          rw [shape, extended.content nodup_new, ← list_eq, content_congr same, content_eq,
            List.append_assoc, List.take_append_drop]

end Spp.TRWCache
