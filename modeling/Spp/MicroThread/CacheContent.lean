import Spp.MicroThread.Cache

/-!
# The bytes of a cache

The content of a cache is what its blocks contain, one after the other.  `cache_copy_out` takes
bytes from its front, and `cache_append_data` adds bytes at its end.
-/

namespace Spp

/-- The bytes of a block are inside it. -/
structure TSkBuffer.Fits (block : TSkBuffer) : Prop where
  head_le : block.head ≤ block.data
  inside : block.data + block.dataLen ≤ block.fin
  fin_eq : block.fin = block.head + block.size
  fin_le : block.fin ≤ block.memory.size
  size_pos : 0 < block.size

/-- The block has no bytes and can take as many as its size. -/
structure TSkBuffer.Empty (block : TSkBuffer) : Prop extends block.Fits where
  data_eq : block.data = block.head
  dataLen_eq : block.dataLen = 0

namespace TSkBuffer

theorem length_content (block : TSkBuffer) : block.content.length = block.dataLen :=
  length_slice ..

variable {block : TSkBuffer}

theorem Fits.extend (fits : block.Fits) {data : List UInt8}
    (room : data.length ≤ block.fin - block.data - block.dataLen) :
    ∃ memory, block.memory.write (block.data + block.dataLen) data = some memory ∧
      Fits { block with memory, dataLen := block.dataLen + data.length } ∧
      content { block with memory, dataLen := block.dataLen + data.length } =
        block.content ++ data := by
  have inside := fits.inside
  have fin_le := fits.fin_le
  refine ⟨_, ByteRegion.write_eq (by omega), ⟨fits.head_le, by simp only; omega, fits.fin_eq,
    fits.fin_le, fits.size_pos⟩, ?_⟩
  simp only [content]
  rw [slice_add, slice_splice, slice_splice_disjoint _ _ _ _ _ (Or.inl le_rfl)]

theorem Fits.skip (fits : block.Fits) {len : Nat} (le : len ≤ block.dataLen) :
    Fits { block with dataLen := block.dataLen - len, data := block.data + len } ∧
      block.memory.read block.data len = some (block.content.take len) ∧
      content { block with dataLen := block.dataLen - len, data := block.data + len } =
        block.content.drop len := by
  have inside := fits.inside
  have fin_le := fits.fin_le
  have head_le := fits.head_le
  have split : block.content = slice block.memory.byte block.data len ++
      slice block.memory.byte (block.data + len) (block.dataLen - len) := by
    rw [content, ← slice_add, Nat.add_sub_cancel' le]
  refine ⟨⟨by simp only; omega, by simp only; omega, fits.fin_eq, fits.fin_le, fits.size_pos⟩, ?_,
    ?_⟩
  · rw [ByteRegion.read_eq (by omega), split, List.take_left' (length_slice ..)]
  · rw [split, List.drop_left' (length_slice ..)]
    rfl

end TSkBuffer

namespace TSkBuffMng

variable {ι : Type}

/-- The bytes in some blocks. -/
def content (pool : TSkBuffMng ι) (list : List ι) : List UInt8 :=
  list.flatMap fun ptr => ((pool.block ptr).map TSkBuffer.content).getD []

/-- How many bytes the blocks that are left can take. -/
def capacity (pool : TSkBuffMng ι) : Nat :=
  (pool.freeList.map fun ptr => ((pool.block ptr).map TSkBuffer.size).getD 0).sum +
    pool.malloc.length * pool.size

/-- The invariant of the pool. -/
structure Sound (pool : TSkBuffMng ι) (used : List ι) : Prop where
  nodup : (used ++ pool.freeList).Nodup
  fits : ∀ ptr ∈ used, ∃ block, pool.block ptr = some block ∧ block.Fits
  empty : ∀ ptr ∈ pool.freeList, ∃ block, pool.block ptr = some block ∧ block.Empty
  /-- `malloc` gives memory that is not in use. -/
  unused : ∀ fresh ∈ pool.malloc, pool.block fresh.1 = none
  fresh_nodup : (pool.malloc.map Prod.fst).Nodup
  size_pos : 0 < pool.size
  size_le : pool.size ≤ 4294967232

section Content

variable {pool after : TSkBuffMng ι} {list front : List ι} {ptr : ι} {block : TSkBuffer}

@[simp] theorem content_nil (pool : TSkBuffMng ι) : pool.content [] = [] := rfl

theorem content_cons (found : pool.block ptr = some block) (list : List ι) :
    pool.content (ptr :: list) = block.content ++ pool.content list := by
  rw [content, List.flatMap_cons, found]
  rfl

theorem content_append (pool : TSkBuffMng ι) (front list : List ι) :
    pool.content (front ++ list) = pool.content front ++ pool.content list :=
  List.flatMap_append

theorem content_congr (same : ∀ ptr ∈ list, after.block ptr = pool.block ptr) :
    after.content list = pool.content list := by
  refine List.flatMap_congr fun ptr member => ?_
  rw [same ptr member]

theorem mallocSize_eq {size : Nat} (small : size ≤ 4294967232) :
    skBuffOffset + size ≤ mallocSize size := by
  simp only [mallocSize, skBuffOffset, skBufferSize, skDfltAlignSize, u32]
  omega

theorem Sound.perm {others : List ι} (sound : Sound pool list) (perm : list.Perm others) :
    Sound pool others :=
  ⟨(perm.append_right _).nodup_iff.1 sound.nodup, fun ptr member =>
    sound.fits ptr (perm.mem_iff.2 member),
    sound.empty, sound.unused, sound.fresh_nodup, sound.size_pos, sound.size_le⟩

theorem Sound.notMem_freeList (sound : Sound pool list) (member : ptr ∈ list) :
    ptr ∉ pool.freeList := fun free =>
  (List.nodup_append.1 sound.nodup).2.2 ptr member ptr free rfl

variable [DecidableEq ι]

@[simp] theorem setBlock_block (pool : TSkBuffMng ι) (ptr : ι) (block : TSkBuffer) :
    (pool.setBlock ptr block).block ptr = some block := Function.update_self ..

theorem setBlock_of_ne (pool : TSkBuffMng ι) (block : TSkBuffer) {other : ι} (ne : other ≠ ptr) :
    (pool.setBlock ptr block).block other = pool.block other := Function.update_of_ne ne ..

theorem Sound.capacity_setBlock (sound : Sound pool list) (member : ptr ∈ list)
    (block : TSkBuffer) :
    (pool.setBlock ptr block).capacity = pool.capacity := by
  refine congrArg (List.sum · + pool.malloc.length * pool.size)
    (List.map_congr_left fun other is_free => ?_)
  rw [setBlock_of_ne]
  rintro rfl
  exact sound.notMem_freeList member is_free

theorem Sound.setBlock (sound : Sound pool list) (member : ptr ∈ list) (fits : block.Fits) :
    Sound (pool.setBlock ptr block) list := by
  have notMem := sound.notMem_freeList member
  obtain ⟨old, found, -⟩ := sound.fits ptr member
  obtain ⟨nodup, fits_used, empty, unused, fresh_nodup, size_pos, size_le⟩ := sound
  refine ⟨nodup, ?_, ?_, ?_, fresh_nodup, size_pos, size_le⟩ <;>
    simp only [TSkBuffMng.setBlock, Function.update_apply] <;> grind

theorem Sound.freeSkBuffer (sound : Sound pool (ptr :: list)) :
    ∃ after, pool.freeSkBuffer ptr = some after ∧ Sound after list ∧
      (∀ other, other ≠ ptr → after.block other = pool.block other) := by
  obtain ⟨block, found, fits⟩ := sound.fits ptr List.mem_cons_self
  have notMem : ptr ∉ list ++ pool.freeList := (List.nodup_cons.1 sound.nodup).1
  have empty : TSkBuffer.Empty { block with data := block.head, dataLen := 0 } :=
    ⟨⟨le_rfl, by have := fits.fin_eq; simp only; omega, fits.fin_eq, fits.fin_le, fits.size_pos⟩,
      rfl, rfl⟩
  rw [TSkBuffMng.freeSkBuffer, found]
  refine ⟨_, rfl, ⟨?_, ?_, ?_, ?_, sound.fresh_nodup, sound.size_pos, sound.size_le⟩,
    fun other ne => setBlock_of_ne _ _ ne⟩
  · have perm : (ptr :: (list ++ pool.freeList)).Perm (list ++ (pool.freeList ++ [ptr])) := by
      rw [← List.append_assoc]
      exact (List.perm_append_singleton ptr (list ++ pool.freeList)).symm
    exact perm.nodup_iff.1 sound.nodup
  all_goals
    obtain ⟨-, fits_used, empty_free, unused, -⟩ := sound
    simp only [TSkBuffMng.setBlock, Function.update_apply]
    grind

/-- What `alloc_sk_buffer` is to do. -/
structure Allocated (pool : TSkBuffMng ι) (used : List ι) (ptr : ι) (after : TSkBuffMng ι) :
    Prop where
  sound : Sound after (used ++ [ptr])
  block : ∃ block, after.block ptr = some block ∧ block.Empty ∧
    after.capacity + block.size = pool.capacity
  notMem : ptr ∉ used
  same : ∀ other ∈ used, after.block other = pool.block other

omit [DecidableEq ι] in
theorem Sound.allocSkBuffer_of_free {freeList : List ι} (sound : Sound pool list)
    (free_eq : pool.freeList = ptr :: freeList) :
    Allocated pool list ptr { pool with freeList } := by
  have nodup := sound.nodup
  rw [free_eq] at nodup
  have is_free : ptr ∈ pool.freeList := free_eq ▸ List.mem_cons_self
  have notMem : ptr ∉ list := fun member => sound.notMem_freeList member is_free
  obtain ⟨block, found, empty⟩ := sound.empty ptr is_free
  obtain ⟨-, fits, empty_free, unused, fresh_nodup, size_pos, size_le⟩ := sound
  refine ⟨⟨by rwa [List.append_assoc], ?_, ?_, unused, fresh_nodup, size_pos, size_le⟩,
    ⟨block, found, empty, ?_⟩, notMem, fun _ _ => rfl⟩
  · have fits_ptr := empty.toFits
    grind
  · grind
  · show (freeList.map fun ptr => ((pool.block ptr).map TSkBuffer.size).getD 0).sum +
      pool.malloc.length * pool.size + block.size = _
    rw [capacity, free_eq, List.map_cons, List.sum_cons, found]
    simp only [Option.map_some, Option.getD_some]
    omega

theorem Sound.allocSkBuffer_of_malloc {byte : Nat → UInt8} {malloc : List (ι × (Nat → UInt8))}
    (sound : Sound pool list) (free_eq : pool.freeList = [])
    (malloc_eq : pool.malloc = (ptr, byte) :: malloc) :
    Allocated pool list ptr ({ pool with malloc }.setBlock ptr (newBlock pool.size byte)) := by
  have no_block : pool.block ptr = none := sound.unused (ptr, byte) (malloc_eq ▸ List.mem_cons_self)
  have enough := mallocSize_eq sound.size_le
  have empty : (newBlock pool.size byte).Empty :=
    ⟨⟨le_rfl, Nat.zero_le _, (Nat.zero_add _).symm, by simp only [newBlock]; omega,
      sound.size_pos⟩, rfl, rfl⟩
  have fits_new := empty.toFits
  obtain ⟨nodup, fits, -, unused, fresh_nodup, size_pos, size_le⟩ := sound
  have notMem : ptr ∉ list := fun member => by grind
  rw [malloc_eq, List.map_cons] at fresh_nodup
  refine ⟨⟨?_, ?_, ?_, ?_, fresh_nodup.of_cons, size_pos, size_le⟩,
    ⟨_, setBlock_block .., empty, ?_⟩, notMem, ?_⟩
  case refine_5 =>
    show (pool.freeList.map _).sum + malloc.length * pool.size + pool.size = _
    rw [capacity, free_eq, malloc_eq, List.length_cons, Nat.succ_mul, ← Nat.add_assoc]
    rfl
  case refine_4 =>
    intro fresh member
    have in_rest : fresh.1 ∈ malloc.map Prod.fst := List.mem_map_of_mem member
    have not_ptr : fresh.1 ≠ ptr := fun is_ptr => fresh_nodup.notMem (is_ptr ▸ in_rest)
    rw [setBlock_of_ne _ _ not_ptr]
    exact unused fresh (malloc_eq ▸ List.mem_cons_of_mem _ member)
  all_goals
    simp only [TSkBuffMng.setBlock, Function.update_apply]
    grind

theorem Sound.allocSkBuffer (sound : Sound pool list) :
    (pool.capacity = 0 ∧ pool.allocSkBuffer = some (none, pool)) ∨
      ∃ ptr after, pool.allocSkBuffer = some (some ptr, after) ∧ Allocated pool list ptr after := by
  cases free_eq : pool.freeList with
  | cons ptr freeList =>
      refine Or.inr ⟨ptr, _, ?_, sound.allocSkBuffer_of_free free_eq⟩
      rw [TSkBuffMng.allocSkBuffer, free_eq]
  | nil =>
      cases malloc_eq : pool.malloc with
      | nil =>
          refine Or.inl ⟨by simp [capacity, free_eq, malloc_eq], ?_⟩
          rw [TSkBuffMng.allocSkBuffer, free_eq]
          simp only [newSkBuffer, malloc_eq]
      | cons fresh malloc =>
          obtain ⟨ptr, byte⟩ := fresh
          refine Or.inr ⟨ptr, _, ?_, sound.allocSkBuffer_of_malloc free_eq malloc_eq⟩
          have enough := mallocSize_eq sound.size_le
          rw [TSkBuffMng.allocSkBuffer, free_eq]
          simp only [newSkBuffer, malloc_eq]
          rw [if_neg (by omega), free_eq]

theorem Sound.freeAll {keep : List ι} (sound : Sound pool (list ++ keep)) :
    ∃ after, pool.freeAll keep = some after ∧ Sound after list ∧
      ∀ ptr ∈ list, after.block ptr = pool.block ptr := by
  induction keep generalizing pool with
  | nil =>
      rw [List.append_nil] at sound
      exact ⟨pool, rfl, sound, fun _ _ => rfl⟩
  | cons first keep induction =>
      have sound_first : Sound pool (first :: (list ++ keep)) := sound.perm List.perm_middle
      have notMem : first ∉ list := fun member =>
        (List.nodup_append.1 (List.nodup_append.1 sound.nodup).1).2.2 first member first
          List.mem_cons_self rfl
      obtain ⟨between, frees, sound, same⟩ := sound_first.freeSkBuffer
      obtain ⟨after, frees_rest, sound, same_rest⟩ := induction sound
      refine ⟨after, ?_, sound, fun ptr member => ?_⟩
      · rw [TSkBuffMng.freeAll, frees]
        exact frees_rest
      · rw [same_rest ptr member, same ptr]
        rintro rfl
        exact notMem member

end Content

end TSkBuffMng

namespace TRWCache

open TSkBuffMng

variable {ι : Type} [DecidableEq ι] {pool : TSkBuffMng ι} {list : List ι}

/-! ## Taking bytes out -/

/-- The loop of `cache_copy_out` has taken bytes from the front. -/
structure TakesOut (copies : Bool) (pool : TSkBuffMng ι) (list : List ι) (left : Nat)
    (copied : Copied ι) : Prop where
  sound : copied.pool.Sound copied.list
  count_eq : copied.count = copied.list.length
  content_eq : copied.pool.content copied.list = (pool.content list).drop left
  left_eq : copied.left = left - (pool.content list).length
  out_eq : copied.out = if copies then (pool.content list).take left else []

omit [DecidableEq ι] in
theorem copyBytes_eq {block : TSkBuffer} (fits : block.Fits) (copies : Bool) {len : Nat}
    (le : len ≤ block.dataLen) :
    copyBytes copies block len = some (if copies then block.content.take len else []) := by
  cases copies with
  | false => rfl
  | true => exact (fits.skip le).2.1

theorem copyLoop_takesOut (copies : Bool) (left : Nat) (sound : pool.Sound list) :
    ∃ copied, copyLoop copies pool left list.length list = some copied ∧
      TakesOut copies pool list left copied := by
  induction list generalizing pool left with
  | nil => exact ⟨_, rfl, sound, rfl, by simp, by simp, by simp⟩
  | cons ptr list induction =>
      obtain ⟨block, found, fits⟩ := sound.fits ptr List.mem_cons_self
      have content_eq := content_cons found list
      have length_eq := block.length_content
      have notMem : ptr ∉ list := fun member =>
        (List.nodup_cons.1 sound.nodup).1 (List.mem_append_left _ member)
      rw [copyLoop]
      by_cases more : block.dataLen > left
      · obtain ⟨fits_after, -, content_after⟩ := fits.skip more.le
        let after := pool.setBlock ptr
          { block with dataLen := block.dataLen - left, data := block.data + left }
        have same : after.content list = pool.content list := content_congr fun other member => by
          refine setBlock_of_ne _ _ ?_
          rintro rfl
          exact notMem member
        simp only [found, Option.bind_eq_bind, Option.bind_some, if_pos more,
          copyBytes_eq fits copies more.le, if_pos (Nat.sub_pos_of_lt more)]
        refine ⟨_, rfl, sound.setBlock List.mem_cons_self fits_after, rfl, ?_, ?_, ?_⟩
        · show after.content (ptr :: list) = _
          rw [content_cons (setBlock_block ..), content_after, same, content_eq,
            List.drop_append_of_le_length (by omega)]
        · simp only [content_eq, List.length_append]
          omega
        · rw [content_eq, List.take_append_of_le_length (by omega)]
      · have le : block.dataLen ≤ left := not_lt.1 more
        obtain ⟨fits_after, -, -⟩ := fits.skip (le_refl block.dataLen)
        obtain ⟨after, frees, sound_after, same⟩ :=
          (sound.setBlock List.mem_cons_self fits_after).freeSkBuffer
        have content_after : after.content list = pool.content list :=
          content_congr fun other member => by
            have not_ptr : other ≠ ptr := by
              rintro rfl
              exact notMem member
            rw [same other not_ptr, setBlock_of_ne _ _ not_ptr]
        have taken_eq : block.content.take block.dataLen = block.content :=
          List.take_of_length_le length_eq.le
        simp only [Nat.sub_self] at frees
        simp only [found, Option.bind_eq_bind, Option.bind_some, if_neg more,
          copyBytes_eq fits copies le_rfl, Nat.sub_self, lt_irrefl, if_false, frees, taken_eq,
          List.length_cons, Nat.succ_pos, if_true, Nat.add_sub_cancel]
        by_cases enough : left - block.dataLen = 0
        · rw [if_pos enough]
          have left_eq : left = block.content.length := by omega
          refine ⟨_, rfl, sound_after, rfl, ?_, ?_, ?_⟩
          · rw [content_after, content_eq, left_eq, List.drop_left]
          · simp only [content_eq, List.length_append]
            omega
          · rw [content_eq, left_eq, List.take_left]
        · rw [if_neg enough]
          obtain ⟨rest, loops, takes⟩ := induction (left - block.dataLen) sound_after
          have none_left : block.content.drop left = [] := List.drop_eq_nil_of_le (by omega)
          have all_taken : block.content.take left = block.content :=
            List.take_of_length_le (by omega)
          rw [loops]
          refine ⟨_, rfl, takes.sound, takes.count_eq, ?_, ?_, ?_⟩
          · rw [takes.content_eq, content_after, content_eq, List.drop_append, length_eq, none_left,
              List.nil_append]
          · rw [takes.left_eq, content_after, content_eq, List.length_append, length_eq,
              Nat.sub_add_eq]
          · rw [takes.out_eq, content_after, content_eq, List.take_append, length_eq, all_taken]
            cases copies <;> simp

theorem cacheCopyOut_eq {cache : TRWCache ι} (copies : Bool) (len : Nat)
    (sound : pool.Sound cache.list)
    (count_eq : cache.count = cache.list.length) : ∃ rest after,
      cache.cacheCopyOut pool copies len = some (min len (pool.content cache.list).length,
        (if copies then (pool.content cache.list).take len else []),
        ⟨rest, if cache.len > min len (pool.content cache.list).length then
          cache.len - min len (pool.content cache.list).length else 0, rest.length⟩, after) ∧
      after.Sound rest ∧ after.content rest = (pool.content cache.list).drop len := by
  obtain ⟨copied, loops, takes⟩ := copyLoop_takesOut copies len sound
  have skip_eq : len - copied.left = min len (pool.content cache.list).length := by
    have := takes.left_eq
    omega
  refine ⟨copied.list, copied.pool, ?_, takes.sound, takes.content_eq⟩
  rw [cacheCopyOut, count_eq, loops]
  simp only [Option.bind_eq_bind, Option.bind_some, skip_eq, takes.out_eq, takes.count_eq]
  rfl

end TRWCache

end Spp
