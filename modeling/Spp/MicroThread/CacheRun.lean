import Spp.MicroThread.CacheAppend

/-!
# Runs of a cache

A cache is a queue of bytes, as long as the blocks of its pool are not so large that the number of
bytes that `new_sk_buffer` asks `malloc` for wraps around.
-/

namespace Spp.TRWCache

open TSkBuffMng

/-- A cache and its pool. -/
structure Queue (ι : Type) where
  cache : TRWCache ι
  pool : TSkBuffMng ι

/-- The calls of a cache. -/
inductive Event (ι : Type) where
  | appendData (data : List UInt8)
  | appendBuffer (ptr : ι) (block : TSkBuffer)
  | copyOut (copies : Bool) (len : Nat)
  | skipData (len : Nat)
  | skipFirstBuffer
  | malloc (list : List (ι × (Nat → UInt8)))

variable {ι : Type} [DecidableEq ι]

namespace Queue

/-- The bytes in a queue. -/
def content (queue : Queue ι) : List UInt8 := queue.pool.content queue.cache.list

/-- What an event does; the caller of `cache_append_buffer` has written the block before. -/
def step (queue : Queue ι) : Event ι → Option (Queue ι)
  | .appendData data => do
      let (_, cache, pool) ← queue.cache.cacheAppendData queue.pool data
      return ⟨cache, pool⟩
  | .appendBuffer ptr block => do
      let pool := queue.pool.setBlock ptr block
      let cache ← queue.cache.cacheAppendBuffer pool ptr
      return ⟨cache, pool⟩
  | .copyOut copies len => do
      let (_, _, cache, pool) ← queue.cache.cacheCopyOut queue.pool copies len
      return ⟨cache, pool⟩
  | .skipData len => do
      let (cache, pool) ← queue.cache.cacheSkipData queue.pool len
      return ⟨cache, pool⟩
  | .skipFirstBuffer => do
      let (_, cache) ← queue.cache.cacheSkipFirstBuffer queue.pool
      return ⟨cache, queue.pool⟩
  | .malloc list => some ⟨queue.cache, { queue.pool with malloc := list }⟩

end Queue

/-- The event can happen: the bytes are fewer than 2^32, the block of a caller is not in use, and
`malloc` gives memory that is not in use. -/
def Event.Enabled (queue : Queue ι) : Event ι → Prop
  | .appendData data => data.length < 2147483648 ∧ queue.content.length + data.length < 4294967296
  | .appendBuffer ptr block => ptr ∉ queue.cache.list ∧ ptr ∉ queue.pool.freeList ∧
      (∀ fresh ∈ queue.pool.malloc, fresh.1 ≠ ptr) ∧ block.Fits ∧
      queue.content.length + block.dataLen < 4294967296
  | .malloc list => (list.map Prod.fst).Nodup ∧ ∀ fresh ∈ list, queue.pool.block fresh.1 = none
  | _ => True

/-- A pool before the first call. -/
structure Initial (pool : TSkBuffMng ι) : Prop where
  nodup : pool.freeList.Nodup
  empty : ∀ ptr ∈ pool.freeList, ∃ block, pool.block ptr = some block ∧ block.Empty
  /-- `malloc` gives memory that is not in use. -/
  unused : ∀ fresh ∈ pool.malloc, pool.block fresh.1 = none
  fresh_nodup : (pool.malloc.map Prod.fst).Nodup
  size_pos : 0 < pool.size
  /-- `size` is of type `uint32_t`. -/
  size_lt : pool.size < 4294967296

/-- The states of a run that begins with a new cache. -/
def Reaches (pool : TSkBuffMng ι) (queue : Queue ι) : Prop :=
  Initial pool ∧ Relation.ReflTransGen
    (fun before after => ∃ event : Event ι, event.Enabled before ∧ before.step event = some after)
    ⟨init, pool⟩ queue

/-- The cache is a queue of bytes. -/
structure IsQueue (queue : Queue ι) : Prop where
  len_eq : queue.cache.len = queue.content.length
  count_eq : queue.cache.count = queue.cache.list.length
  /-- The bytes of each block are between `head` and `end`. -/
  inside : ∀ ptr ∈ queue.cache.list, ∃ block, queue.pool.block ptr = some block ∧
    block.head ≤ block.data ∧ block.data + block.dataLen ≤ block.fin
  apart : ∀ ptr ∈ queue.cache.list, ptr ∉ queue.pool.freeList
  /-- `cache_append_data` adds the bytes, or it changes nothing; it does not fail if the blocks that
  are left can take the bytes. -/
  append : ∀ data : List UInt8, data.length < 2147483648 →
    queue.content.length + data.length < 4294967296 → ∃ ret cache pool,
      queue.cache.cacheAppendData queue.pool data = some (ret, cache, pool) ∧
      (ret = data.length ∧ pool.content cache.list = queue.content ++ data ∨
        ret = -2 ∧ pool.content cache.list = queue.content ∧ cache.len = queue.cache.len ∧
          cache.count = queue.cache.count ∧
          queue.pool.capacity < data.length)
  /-- `cache_copy_out` gives the first bytes and leaves the rest. -/
  copyOut : ∀ len, ∃ cache pool, queue.cache.cacheCopyOut queue.pool true len =
      some (min len queue.content.length, queue.content.take len, cache, pool) ∧
    pool.content cache.list = queue.content.drop len

/-- The counters of the cache are those of its blocks. -/
structure Holds (queue : Queue ι) : Prop where
  sound : queue.pool.Sound queue.cache.list
  count_eq : queue.cache.count = queue.cache.list.length
  len_eq : queue.cache.len = queue.content.length
  small : queue.content.length < 4294967296

section Steps

variable {queue after : Queue ι} {pool : TSkBuffMng ι} {data : List UInt8}

theorem Holds.append (holds : Holds queue) (short : data.length < 2147483648)
    (small : queue.content.length + data.length < 4294967296) :
    ∃ ret cache pool, queue.cache.cacheAppendData queue.pool data = some (ret, cache, pool) ∧
      Holds ⟨cache, pool⟩ ∧
      (ret = data.length ∧ pool.content cache.list = queue.content ++ data ∨
        ret = -2 ∧ pool.content cache.list = queue.content ∧ cache = queue.cache ∧
          queue.pool.capacity < data.length) := by
  by_cases empty : data = []
  · subst empty
    exact ⟨0, queue.cache, queue.pool, rfl, holds, Or.inl ⟨rfl, (List.append_nil _).symm⟩⟩
  · rcases cacheAppendData_eq holds.sound empty with
      ⟨pool, fails, sound, content_eq, few⟩ | ⟨new, pool, appends, sound, content_eq⟩
    · exact ⟨-2, queue.cache, pool, fails, ⟨sound, holds.count_eq, holds.len_eq.trans
        (congrArg List.length content_eq.symm), by
          show (pool.content queue.cache.list).length < _
          rw [content_eq]
          exact holds.small⟩, Or.inr ⟨rfl, content_eq, rfl, few⟩⟩
    · have length_eq : (pool.content (queue.cache.list ++ new)).length =
          queue.content.length + data.length := by
        rw [content_eq, List.length_append]
        rfl
      refine ⟨_, _, pool, appends, ⟨sound, ?_, ?_, ?_⟩, Or.inl ⟨i32_of_lt short, content_eq⟩⟩
      · show queue.cache.count + new.length = (queue.cache.list ++ new).length
        rw [holds.count_eq, List.length_append]
      · show u32 (queue.cache.len + data.length) = (pool.content (queue.cache.list ++ new)).length
        rw [length_eq, holds.len_eq, u32]
        omega
      · show (pool.content (queue.cache.list ++ new)).length < _
        rw [length_eq]
        exact small

theorem Holds.copyOut (holds : Holds queue) (copies : Bool) (len : Nat) :
    ∃ cache pool, queue.cache.cacheCopyOut queue.pool copies len =
        some (min len queue.content.length, (if copies then queue.content.take len else []), cache,
          pool) ∧
      Holds ⟨cache, pool⟩ ∧ pool.content cache.list = queue.content.drop len := by
  obtain ⟨rest, pool, copied, sound, content_eq⟩ :=
    cacheCopyOut_eq copies len holds.sound holds.count_eq
  have length_eq : (pool.content rest).length = queue.content.length - len := by
    rw [content_eq, List.length_drop]
    rfl
  have small := holds.small
  refine ⟨_, pool, copied, ⟨sound, rfl, ?_, ?_⟩, content_eq⟩
  · show (if queue.cache.len > min len queue.content.length then
      queue.cache.len - min len queue.content.length else 0) = (pool.content rest).length
    rw [length_eq, holds.len_eq]
    split <;> omega
  · show (pool.content rest).length < _
    omega

theorem Holds.skipData (holds : Holds queue) (len : Nat) :
    ∃ cache pool, queue.cache.cacheSkipData queue.pool len = some (cache, pool) ∧
      Holds ⟨cache, pool⟩ ∧ pool.content cache.list = queue.content.drop len := by
  obtain ⟨cache, pool, copied, rest⟩ := holds.copyOut false len
  exact ⟨cache, pool, by rw [cacheSkipData, copied]; rfl, rest⟩

theorem Holds.appendBuffer {ptr : ι} {block : TSkBuffer} (holds : Holds queue)
    (enabled : Event.Enabled queue (.appendBuffer ptr block)) :
    ∃ cache, queue.cache.cacheAppendBuffer (queue.pool.setBlock ptr block) ptr = some cache ∧
      Holds ⟨cache, queue.pool.setBlock ptr block⟩ ∧
      (queue.pool.setBlock ptr block).content cache.list = queue.content ++ block.content := by
  obtain ⟨not_used, not_free, not_fresh, fits, small⟩ := enabled
  have content_eq : (queue.pool.setBlock ptr block).content (queue.cache.list ++ [ptr]) =
      queue.content ++ block.content := by
    rw [content_append, content_cons (setBlock_block ..), content_nil, List.append_nil,
      content_congr fun other member => setBlock_of_ne _ _ (ne_of_mem_of_not_mem member not_used)]
    rfl
  have length_eq : ((queue.pool.setBlock ptr block).content (queue.cache.list ++ [ptr])).length =
      queue.content.length + block.dataLen := by
    rw [content_eq, List.length_append, block.length_content]
  have sound : (queue.pool.setBlock ptr block).Sound (queue.cache.list ++ [ptr]) := by
    obtain ⟨nodup, fits_used, empty, unused, fresh_nodup, size_pos, size_le⟩ := holds.sound
    refine ⟨?_, ?_, ?_, ?_, fresh_nodup, size_pos, size_le⟩ <;>
      simp only [setBlock, Function.update_apply] <;> grind
  refine ⟨_, by rw [cacheAppendBuffer, setBlock_block]; rfl, ⟨sound, ?_, ?_, ?_⟩, content_eq⟩
  · show queue.cache.count + 1 = (queue.cache.list ++ [ptr]).length
    rw [holds.count_eq, List.length_append, List.length_singleton]
  · show u32 (queue.cache.len + block.dataLen) = _
    refine Eq.trans ?_ length_eq.symm
    rw [holds.len_eq, u32]
    omega
  · show ((queue.pool.setBlock ptr block).content (queue.cache.list ++ [ptr])).length < _
    rw [length_eq]
    exact small

omit [DecidableEq ι] in
theorem Holds.skipFirstBuffer (holds : Holds queue) {first : Option ι} {cache : TRWCache ι}
    (skips : queue.cache.cacheSkipFirstBuffer queue.pool = some (first, cache)) :
    Holds ⟨cache, queue.pool⟩ ∧
      queue.content = queue.pool.content first.toList ++ queue.pool.content cache.list := by
  rw [cacheSkipFirstBuffer] at skips
  cases list_eq : queue.cache.list with
  | nil =>
      rw [list_eq] at skips
      cases skips
      exact ⟨holds, rfl⟩
  | cons ptr list =>
      have sound := holds.sound
      rw [list_eq] at skips sound
      obtain ⟨block, found, -⟩ := sound.fits ptr List.mem_cons_self
      simp only [found, Option.bind_eq_bind, Option.bind_some] at skips
      cases skips
      have split : queue.content = block.content ++ queue.pool.content list := by
        rw [Queue.content, list_eq, content_cons found]
      have length_eq := congrArg List.length split
      rw [List.length_append, block.length_content] at length_eq
      have len_eq := holds.len_eq
      have count_eq := holds.count_eq
      have small := holds.small
      rw [list_eq, List.length_cons] at count_eq
      refine ⟨⟨⟨sound.nodup.of_cons, fun other member =>
        sound.fits other (List.mem_cons_of_mem _ member),
        sound.empty, sound.unused, sound.fresh_nodup, sound.size_pos, sound.size_le⟩, ?_, ?_, ?_⟩,
          ?_⟩
      · show (if queue.cache.count > 0 then queue.cache.count - 1 else queue.cache.count) =
          list.length
        split <;> omega
      · show (if queue.cache.len ≥ block.dataLen then queue.cache.len - block.dataLen
          else queue.cache.len) = (queue.pool.content list).length
        split <;> omega
      · show (queue.pool.content list).length < _
        omega
      · rw [split]
        simp only [Option.toList_some, content_cons found, content_nil, List.append_nil]

theorem Holds.step {event : Event ι} (holds : Holds queue) (enabled : event.Enabled queue)
    (steps : queue.step event = some after) : Holds after := by
  cases event with
  | appendData data =>
      obtain ⟨ret, cache, pool, appends, still, -⟩ := holds.append enabled.1 enabled.2
      simp only [Queue.step, appends] at steps
      cases steps
      exact still
  | appendBuffer ptr block =>
      obtain ⟨cache, appends, still, -⟩ := holds.appendBuffer enabled
      simp only [Queue.step, appends] at steps
      cases steps
      exact still
  | copyOut copies len =>
      obtain ⟨cache, pool, copied, still, -⟩ := holds.copyOut copies len
      simp only [Queue.step, copied] at steps
      cases steps
      exact still
  | skipData len =>
      obtain ⟨cache, pool, skips, still, -⟩ := holds.skipData len
      simp only [Queue.step, skips] at steps
      cases steps
      exact still
  | skipFirstBuffer =>
      obtain ⟨⟨first, cache⟩, skips, steps⟩ := Option.bind_eq_some_iff.1 steps
      cases steps
      exact (holds.skipFirstBuffer skips).1
  | malloc list =>
      cases steps
      exact { holds with
        sound := { holds.sound with unused := enabled.2, fresh_nodup := enabled.1 } }

theorem Reaches.holds (reaches : Reaches pool queue) (size_le : pool.size ≤ 4294967232) :
    Holds queue := by
  obtain ⟨initial, run⟩ := reaches
  induction run with
  | refl =>
      exact ⟨⟨initial.nodup, fun _ member => absurd member List.not_mem_nil, initial.empty,
        initial.unused, initial.fresh_nodup, initial.size_pos, size_le⟩, rfl, rfl,
        show 0 < 4294967296 by decide⟩
  | tail _ steps induction =>
      obtain ⟨event, enabled, steps⟩ := steps
      exact induction.step enabled steps

/-- In every run, a cache is a queue of bytes if the size of its blocks leaves room for their
administration. -/
theorem reaches_isQueue (reaches : Reaches pool queue) (size_le : pool.size ≤ 4294967232) :
    IsQueue queue := by
  have holds := reaches.holds size_le
  refine ⟨holds.len_eq, holds.count_eq, fun ptr member => ?_,
    fun ptr member => holds.sound.notMem_freeList member, fun data short small => ?_, fun len => ?_⟩
  · obtain ⟨block, found, fits⟩ := holds.sound.fits ptr member
    exact ⟨block, found, fits.head_le, fits.inside⟩
  · obtain ⟨ret, cache, pool, appends, -, outcome⟩ := holds.append short small
    refine ⟨ret, cache, pool, appends, outcome.imp_right ?_⟩
    rintro ⟨is_failure, content_eq, rfl, few⟩
    exact ⟨is_failure, content_eq, rfl, rfl, few⟩
  · obtain ⟨cache, pool, copied, -, content_eq⟩ := holds.copyOut true len
    exact ⟨cache, pool, copied, content_eq⟩

end Steps

/-- An empty pool with blocks of a size; `malloc` gives one block. -/
def onePool (size : Nat) : TSkBuffMng Nat where
  freeList := []
  size := size
  block := fun _ => none
  malloc := [(0, fun _ => 0)]

theorem initial_onePool {size : Nat} (pos : 0 < size) (small : size < 4294967296) :
    Initial (onePool size) where
  nodup := List.nodup_nil
  empty := fun _ member => absurd member List.not_mem_nil
  unused := fun _ _ => rfl
  fresh_nodup := List.nodup_singleton 0
  size_pos := pos
  size_lt := small

/-- One byte was appended. -/
def oneByte : Queue Nat :=
  (Queue.step ⟨init, onePool 65536⟩ (.appendData [7])).get (by decide)

theorem reaches_isQueue_sample : Reaches (onePool 65536) oneByte ∧ oneByte.content = [7] ∧
    IsQueue oneByte := by
  have reaches : Reaches (onePool 65536) oneByte :=
    ⟨initial_onePool (by decide) (by decide), Relation.ReflTransGen.single
      ⟨.appendData [7], ⟨by decide, by decide⟩, (Option.some_get _).symm⟩⟩
  exact ⟨reaches, by decide, reaches_isQueue reaches (by decide)⟩

/-- With the largest size, the memory that `malloc` gives has room for four bytes of data, and the
fifth is written outside. -/
theorem reaches_outside : Reaches (onePool 4294967295) ⟨init, onePool 4294967295⟩ ∧
    TSkBuffMng.mallocSize 4294967295 = skBuffOffset + 4 ∧
    (init : TRWCache Nat).cacheAppendData (onePool 4294967295) [1, 2, 3, 4, 5] = none :=
  ⟨⟨initial_onePool (by decide) (by decide), Relation.ReflTransGen.refl⟩, by decide, by decide⟩

end Spp.TRWCache
