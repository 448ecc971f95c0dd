import Spp.Lib.ByteRegion
import Spp.Lib.MachineInt

/-!
# Buffer caches, `TRWCache`

The byte queues of `sync_frame/micro_thread/mt_cache.cpp`.  A cache is a list of blocks, each with
some bytes in the middle of its memory; blocks come from a pool and go back to it when their bytes
are consumed.

Blocks are pointers of a type `ι`.  The pointers of a block are offsets in its memory; an access
outside the memory of a block is a failure (`none`).  What `malloc` gives next is part of the pool,
with the bytes that stand in the memory; when there is nothing left, `malloc` fails.
-/

namespace Spp

/-- `TSkBuffer`, but for `last_time` -/
structure TSkBuffer where
  size : Nat
  head : Nat
  fin : Nat
  data : Nat
  dataLen : Nat
  memory : ByteRegion

/-- The bytes in a block. -/
def TSkBuffer.content (block : TSkBuffer) : List UInt8 :=
  slice block.memory.byte block.data block.dataLen

/-- `TSkBuffMng`, with the blocks and with what `malloc` gives next. -/
structure TSkBuffMng (ι : Type) where
  freeList : List ι
  size : Nat
  block : ι → Option TSkBuffer
  malloc : List (ι × (Nat → UInt8))

/-- `TRWCache`, but for the pool. -/
structure TRWCache (ι : Type) where
  list : List ι
  len : Nat
  count : Nat

/-- `sizeof(TSkBuffer)` -/
def skBufferSize : Nat := 56

/-- `offsetof(TSkBuffer, buff)`: the data starts in the padding of the administration. -/
def skBuffOffset : Nat := 52

/-- `SK_DFLT_ALIGN_SIZE` -/
def skDfltAlignSize : Nat := 8

namespace TSkBuffMng

variable {ι : Type} [DecidableEq ι]

/-- A block changes. -/
def setBlock (pool : TSkBuffMng ι) (ptr : ι) (block : TSkBuffer) : TSkBuffMng ι :=
  { pool with block := Function.update pool.block ptr (some block) }

/-- The bytes that `new_sk_buffer` asks for. -/
def mallocSize (size : Nat) : Nat :=
  u32 (u32 (skBufferSize + size) + skDfltAlignSize - 1) / skDfltAlignSize * skDfltAlignSize

/-- A block as `new_sk_buffer` sets it up in the memory that `malloc` gave. -/
def newBlock (size : Nat) (byte : Nat → UInt8) : TSkBuffer :=
  ⟨size, 0, size, 0, 0, ⟨mallocSize size - skBuffOffset, byte⟩⟩

/-- `new_sk_buffer`; the administration itself needs `skBuffOffset` bytes. -/
def newSkBuffer (pool : TSkBuffMng ι) (size : Nat) : Option (Option ι × TSkBuffMng ι) :=
  match pool.malloc with
  | [] => some (none, pool)
  | (ptr, byte) :: malloc =>
      if mallocSize size < skBuffOffset then
        none
      else
        some (some ptr, { pool with malloc }.setBlock ptr (newBlock size byte))

/-- `alloc_sk_buffer` -/
def allocSkBuffer (pool : TSkBuffMng ι) : Option (Option ι × TSkBuffMng ι) :=
  match pool.freeList with
  | ptr :: freeList => some (some ptr, { pool with freeList })
  | [] => pool.newSkBuffer pool.size

/-- `free_sk_buffer` -/
def freeSkBuffer (pool : TSkBuffMng ι) (ptr : ι) : Option (TSkBuffMng ι) := do
  let block ← pool.block ptr
  return { pool with freeList := pool.freeList ++ [ptr] }.setBlock ptr
    { block with data := block.head, dataLen := 0 }

/-- `rw_cache_destroy` of a cache with the blocks of a list. -/
def freeAll (pool : TSkBuffMng ι) : (list : List ι) → Option (TSkBuffMng ι)
  | [] => some pool
  | ptr :: list => do
      let pool ← pool.freeSkBuffer ptr
      pool.freeAll list

end TSkBuffMng

namespace TRWCache

variable {ι : Type} [DecidableEq ι]

/-- An empty cache. -/
def init : TRWCache ι := ⟨[], 0, 0⟩

/-- What `cache_copy_out` has done. -/
structure Copied (ι : Type) where
  left : Nat
  out : List UInt8
  list : List ι
  count : Nat
  pool : TSkBuffMng ι

/-- What is copied from a block to the buffer of the caller; `copies` tells whether there is one. -/
def copyBytes (copies : Bool) (item : TSkBuffer) (len : Nat) : Option (List UInt8) :=
  if copies then item.memory.read item.data len else some []

/-- The loop of `cache_copy_out`. -/
def copyLoop (copies : Bool) (pool : TSkBuffMng ι) (left count : Nat) : (list : List ι) →
    Option (Copied ι)
  | [] => some ⟨left, [], [], count, pool⟩
  | ptr :: list => do
      let item ← pool.block ptr
      let skipLen := if item.dataLen > left then left else item.dataLen
      let out ← copyBytes copies item skipLen
      let pool := pool.setBlock ptr
        { item with dataLen := item.dataLen - skipLen, data := item.data + skipLen }
      if item.dataLen - skipLen > 0 then
        return ⟨left - skipLen, out, ptr :: list, count, pool⟩
      else
        let count := if count > 0 then count - 1 else count
        let pool ← pool.freeSkBuffer ptr
        if left - skipLen = 0 then
          return ⟨left - skipLen, out, list, count, pool⟩
        else
          let rest ← copyLoop copies pool (left - skipLen) count list
          return { rest with out := out ++ rest.out }

/-- `cache_copy_out`: what it returns, what it copies, the cache and the pool. -/
def cacheCopyOut (cache : TRWCache ι) (pool : TSkBuffMng ι) (copies : Bool) (len : Nat) :
    Option (Nat × List UInt8 × TRWCache ι × TSkBuffMng ι) := do
  let copied ← copyLoop copies pool len cache.count cache.list
  let skipLen := len - copied.left
  let left := if cache.len > skipLen then cache.len - skipLen else 0
  return (skipLen, copied.out, ⟨copied.list, left, copied.count⟩, copied.pool)

/-- `cache_skip_data` -/
def cacheSkipData (cache : TRWCache ι) (pool : TSkBuffMng ι) (len : Nat) :
    Option (TRWCache ι × TSkBuffMng ι) := do
  let copied ← cache.cacheCopyOut pool false len
  return copied.2.2

/-- `cache_append_buffer` -/
def cacheAppendBuffer (cache : TRWCache ι) (pool : TSkBuffMng ι) (ptr : ι) :
    Option (TRWCache ι) := do
  let block ← pool.block ptr
  return ⟨cache.list ++ [ptr], u32 (cache.len + block.dataLen), cache.count + 1⟩

/-- `cache_skip_first_buffer` -/
def cacheSkipFirstBuffer (cache : TRWCache ι) (pool : TSkBuffMng ι) :
    Option (Option ι × TRWCache ι) :=
  match cache.list with
  | [] => some (none, cache)
  | ptr :: list => do
      let block ← pool.block ptr
      let len := if cache.len ≥ block.dataLen then cache.len - block.dataLen else cache.len
      let count := if cache.count > 0 then cache.count - 1 else cache.count
      return (some ptr, ⟨list, len, count⟩)

/-- The second part of `cache_append_data`: blocks for the rest `data` are collected in `keep`; if
there is no block, those in `keep` are freed. -/
def appendLoop : (rounds : Nat) → (pool : TSkBuffMng ι) → (keep : List ι) → (data : List UInt8) →
    Option (Option (List ι) × TSkBuffMng ι)
  | 0, _, _, _ => none
  | rounds + 1, pool, keep, data =>
      if data.length > 0 then do
        let allocated ← pool.allocSkBuffer
        let pool := allocated.2
        match allocated.1 with
        | none =>
            let pool ← pool.freeAll keep
            return (none, pool)
        | some ptr =>
            let item ← pool.block ptr
            let copied := if data.length ≤ item.size then data.length else item.size
            let memory ← item.memory.write item.head (data.take copied)
            let pool := pool.setBlock ptr { item with memory, dataLen := copied }
            if data.length ≤ item.size then
              return (some (keep ++ [ptr]), pool)
            else
              appendLoop rounds pool (keep ++ [ptr]) (data.drop copied)
      else
        some (some keep, pool)

/-- `remain`, the space behind the bytes of the last block. -/
def remain (pool : TSkBuffMng ι) (tail : Option ι) : Option Nat :=
  match tail with
  | none => some 0
  | some ptr => do
      let item ← pool.block ptr
      return if item.fin > item.data + item.dataLen then item.fin - item.data - item.dataLen else 0

/-- Bytes go behind those of the last block. -/
def fillTail (pool : TSkBuffMng ι) (tail : Option ι) (data : List UInt8) : Option (TSkBuffMng ι) :=
  match tail with
  | none => some pool
  | some ptr => do
      let item ← pool.block ptr
      let memory ← item.memory.write (item.data + item.dataLen) data
      return pool.setBlock ptr { item with memory, dataLen := item.dataLen + data.length }

/-- `fillTail`, when there are bytes. -/
def fillRemain (pool : TSkBuffMng ι) (tail : Option ι) (data : List UInt8) :
    Option (TSkBuffMng ι) :=
  if data.length > 0 then fillTail pool tail data else some pool

/-- `cache_append_data`, where a block of size 0 is a failure. -/
def cacheAppendData (cache : TRWCache ι) (pool : TSkBuffMng ι) (data : List UInt8) :
    Option (Int × TRWCache ι × TSkBuffMng ι) := do
  if data.length = 0 then
    return (0, cache, pool)
  else
    let tail := cache.list.getLast?
    let remain ← remain pool tail
    if tail ≠ none ∧ remain ≥ data.length then
      let pool ← fillTail pool tail data
      return (i32 data.length, { cache with len := u32 (cache.len + data.length) }, pool)
    else
      let rest := data.drop remain
      let appended ← appendLoop (rest.length + 1) pool [] rest
      match appended.1 with
      | none => return (-2, cache, appended.2)
      | some keep =>
          let pool ← fillRemain appended.2 tail (data.take remain)
          return (i32 data.length, ⟨cache.list ++ keep, u32 (cache.len + data.length),
            cache.count + keep.length⟩, pool)

end TRWCache

end Spp
