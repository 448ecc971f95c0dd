import Spp.Lib.ByteRegion
import Spp.Lib.Executions
import Spp.Lib.MachineInt

/-!
# Contiguous caches, `CRawCache`

The byte queues of `comm/tbase/tsockcommu/tcache.cpp`.  A cache keeps its bytes in the middle of one
memory block; it gets a larger block when the bytes do not fit, and gives the block back when all of
them are consumed.

The counters are 32-bit unsigned integers, and their sums wrap.  An access outside the block is a
failure (`none`), and so is an allocation that fails, where the source throws.  The bytes that stand
in a fresh block are an argument.
-/

namespace Spp

/-- `RAW_CACHE_DEFAULT_SIZE` -/
def rawCacheDefaultSize : Nat := 65536

/-- `CRawCache`, but for the pool, which is `malloc` and `free`. -/
structure CRawCache where
  mem : Option ByteRegion
  blockSize : Nat
  dataHead : Nat
  dataLen : Nat
  finBit : Bool

/-- What `malloc` gives: the bytes that stand in the memory, or nothing. -/
abbrev Fresh : Type := Option (Nat → UInt8)

namespace CRawCache

/-- A new cache. -/
def init : CRawCache := ⟨none, 0, 0, 0, false⟩

/-- The bytes behind `data()`; it returns `NULL` if there are none, and exits if they begin behind
the block. -/
def data (cache : CRawCache) : Option (List UInt8) :=
  if cache.dataLen = 0 then
    some []
  else if cache.dataHead ≥ cache.blockSize then
    none
  else do
    let mem ← cache.mem
    mem.read cache.dataHead cache.dataLen

/-- What `append` gives. -/
structure Appended where
  cache : CRawCache
  thrown : Bool

/-- `append` where there is no block. -/
def appendFirst (cache : CRawCache) (fresh : Fresh) (bytes : List UInt8) : Option Appended :=
  let size := max rawCacheDefaultSize bytes.length
  match fresh with
  | none => some ⟨{ cache with blockSize := size }, true⟩
  | some byte => do
      let mem ← (ByteRegion.mk size byte).write 0 bytes
      return ⟨{ cache with
        mem := some mem, blockSize := size, dataHead := 0, dataLen := bytes.length }, false⟩

/-- `append` where the bytes fit behind those of the cache. -/
def appendDirect (cache : CRawCache) (mem : ByteRegion) (bytes : List UInt8) : Option Appended := do
  let mem ← mem.write (cache.dataHead + cache.dataLen) bytes
  return ⟨{ cache with mem := some mem, dataLen := u32 (cache.dataLen + bytes.length) }, false⟩

/-- The size of the next buffer. -/
def grownSize (cache : CRawCache) (length : Nat) : Nat :=
  max (u32 (cache.dataLen + length)) (u32 (cache.blockSize * 2))

/-- `append` when the bytes do not fit. -/
def appendGrown (cache : CRawCache) (mem : ByteRegion) (fresh : Fresh) (bytes : List UInt8) :
    Option Appended :=
  let size := cache.grownSize bytes.length
  match fresh with
  | none => some ⟨cache, true⟩
  | some byte => do
      let old ← mem.read cache.dataHead cache.dataLen
      let grown ← (ByteRegion.mk size byte).write 0 old
      let grown ← grown.write cache.dataLen bytes
      return ⟨{ cache with
        mem := some grown, blockSize := size, dataHead := 0,
        dataLen := u32 (cache.dataLen + bytes.length) }, false⟩

/-- `append` after the bytes have moved to the front of the block. -/
def appendMoved (cache : CRawCache) (mem : ByteRegion) (bytes : List UInt8) : Option Appended := do
  let old ← mem.read cache.dataHead cache.dataLen
  let mem ← mem.write 0 old
  let mem ← mem.write cache.dataLen bytes
  return ⟨{ cache with
    mem := some mem, dataHead := 0, dataLen := u32 (cache.dataLen + bytes.length) }, false⟩

/-- `append` -/
def append (cache : CRawCache) (fresh : Fresh) (bytes : List UInt8) : Option Appended :=
  if cache.finBit then
    some ⟨cache, false⟩
  else
    match cache.mem with
    | none => cache.appendFirst fresh bytes
    | some mem =>
        if u32 (bytes.length + cache.dataHead + cache.dataLen) ≤ cache.blockSize then
          cache.appendDirect mem bytes
        else if u32 (bytes.length + cache.dataLen) > cache.blockSize then
          cache.appendGrown mem fresh bytes
        else
          cache.appendMoved mem bytes

/-- `skip` -/
def skip (cache : CRawCache) (length : Nat) : CRawCache :=
  match cache.mem with
  | none => cache
  | some _ =>
      if length ≥ cache.dataLen then
        { cache with mem := none, blockSize := 0, dataHead := 0, dataLen := 0 }
      else
        { cache with
          dataHead := u32 (cache.dataHead + length), dataLen := cache.dataLen - length }

/-! ## Caches that hold bytes -/

/-- The bytes in the cache. -/
def content (cache : CRawCache) : List UInt8 :=
  match cache.mem with
  | none => []
  | some mem => slice mem.byte cache.dataHead cache.dataLen

/-- The bytes of the cache are inside its buffer. -/
structure Sound (cache : CRawCache) : Prop where
  empty : cache.mem = none → cache.dataHead = 0 ∧ cache.dataLen = 0
  size_eq : ∀ mem, cache.mem = some mem → mem.size = cache.blockSize
  inside : cache.dataHead + cache.dataLen ≤ cache.blockSize ∨ cache.mem = none
  size_lt : cache.blockSize < 4294967296

variable {bytes : List UInt8}

theorem sound_init : Sound init where
  empty := fun _ => ⟨rfl, rfl⟩
  size_eq := fun _ found => absurd found (by simp [init])
  inside := Or.inr rfl
  size_lt := by decide

variable {cache : CRawCache}

theorem Sound.length_content (sound : Sound cache) : cache.content.length = cache.dataLen := by
  unfold content
  cases found : cache.mem with
  | none => exact (sound.empty found).2.symm
  | some mem => exact length_slice ..

theorem Sound.inside_block (sound : Sound cache) {mem : ByteRegion} (found : cache.mem = some mem) :
    cache.dataHead + cache.dataLen ≤ mem.size := by
  rw [sound.size_eq mem found]
  exact sound.inside.resolve_right (by rw [found]; exact Option.some_ne_none mem)

theorem Sound.data_eq (sound : Sound cache) : cache.data = some cache.content := by
  have length_eq := sound.length_content
  unfold data
  split
  · rename_i empty
    rw [List.length_eq_zero_iff.1 (length_eq.trans empty)]
  · rename_i nonempty
    cases found : cache.mem with
    | none => exact absurd (sound.empty found).2 nonempty
    | some mem =>
        have inside := sound.inside_block found
        rw [if_neg (by rw [← sound.size_eq mem found]; omega)]
        simp only [content, found, Option.bind_eq_bind, Option.bind_some]
        exact ByteRegion.read_eq inside

/-- What `append` is to do. -/
structure Appends (before : CRawCache) (bytes : List UInt8) (appended : Appended) : Prop where
  sound : Sound appended.cache
  content_eq : appended.cache.content =
    if appended.thrown then before.content else before.content ++ bytes
  finBit_eq : appended.cache.finBit = before.finBit
  blockSize_le : appended.cache.blockSize ≤
    max before.blockSize (max rawCacheDefaultSize (2 * (before.dataLen + bytes.length)))
  dataHead_eq : before.dataHead = 0 → appended.cache.dataHead = 0

theorem appendFirst_eq (none_found : cache.mem = none) (sound : Sound cache) (fresh : Fresh)
    (small : bytes.length < 4294967296) :
    ∃ appended, cache.appendFirst fresh bytes = some appended ∧ Appends cache bytes appended ∧
      (appended.thrown = true → fresh = none) := by
  have size_lt : max rawCacheDefaultSize bytes.length < 4294967296 :=
    max_lt (by decide) small
  have size_le : max rawCacheDefaultSize bytes.length ≤
      max rawCacheDefaultSize (2 * (cache.dataLen + bytes.length)) := by omega
  have content_eq : cache.content = [] := by rw [content, none_found]
  cases fresh with
  | none =>
      refine ⟨_, rfl, ⟨⟨sound.empty, ?_, Or.inr none_found, size_lt⟩, ?_, rfl, ?_, id⟩,
        fun _ => rfl⟩
      · intro mem found
        exact absurd (none_found.symm.trans found) (Option.some_ne_none mem).symm
      · show content _ = cache.content
        rw [content_eq, content]
        simp only [none_found]
      · exact size_le.trans (le_max_right _ _)
  | some byte =>
      have inside : 0 + bytes.length ≤ max rawCacheDefaultSize bytes.length := by omega
      refine ⟨⟨{ cache with
          mem := some ⟨max rawCacheDefaultSize bytes.length, splice byte 0 bytes⟩,
          blockSize := max rawCacheDefaultSize bytes.length, dataHead := 0,
          dataLen := bytes.length }, false⟩, ?_, ⟨⟨?_, ?_, Or.inl inside, size_lt⟩, ?_, rfl, ?_,
        fun _ => rfl⟩, ?_⟩
      · simp only [appendFirst, ByteRegion.write, if_pos inside, Option.bind_eq_bind,
          Option.bind_some]
        rfl
      · exact fun missing => absurd missing (Option.some_ne_none _)
      · intro mem found
        cases found
        rfl
      · show slice (splice byte 0 bytes) 0 bytes.length = cache.content ++ bytes
        rw [slice_splice, content_eq, List.nil_append]
      · exact size_le.trans (le_max_right _ _)
      · exact fun thrown => absurd thrown Bool.false_ne_true

theorem slice_splice_behind {α : Type*} (cells : Nat → α) (offset len : Nat) (data : List α) :
    slice (splice cells (offset + len) data) offset (len + data.length) =
      slice cells offset len ++ data := by
  rw [slice_add, slice_splice_disjoint _ _ _ _ _ (Or.inl (le_refl _)), slice_splice]

/-- Bytes written to the front of a block, and others right behind them. -/
theorem slice_splice_front {α : Type*} (cells : Nat → α) (front back : List α) :
    slice (splice (splice cells 0 front) front.length back) 0 (front.length + back.length) =
      front ++ back := by
  have behind := slice_splice_behind (splice cells 0 front) 0 front.length back
  rwa [slice_splice, Nat.zero_add] at behind

theorem Appends.of_block (mem : ByteRegion) {head size len : Nat}
    (len_eq : len = cache.dataLen + bytes.length) (size_eq : mem.size = size)
    (inside : head + (cache.dataLen + bytes.length) ≤ size) (size_lt : size < 4294967296)
    (size_le : size ≤ max cache.blockSize (max rawCacheDefaultSize
      (2 * (cache.dataLen + bytes.length))))
    (content_eq : slice mem.byte head (cache.dataLen + bytes.length) = cache.content ++ bytes)
    (head_eq : cache.dataHead = 0 → head = 0) :
    Appends cache bytes ⟨⟨some mem, size, head, len, cache.finBit⟩, false⟩ := by
  subst len_eq
  refine ⟨⟨fun missing => absurd missing (Option.some_ne_none _), ?_, Or.inl inside, size_lt⟩,
    content_eq, rfl, size_le, head_eq⟩
  intro block found
  cases found
  exact size_eq

section Block

variable {mem : ByteRegion} (found : cache.mem = some mem) (sound : Sound cache)
  (small : bytes.length + cache.dataHead + cache.dataLen < 4294967296)

include found sound small

omit found sound in
theorem len_eq : u32 ((cache.dataLen : Int) + bytes.length) = cache.dataLen + bytes.length := by
  unfold u32
  omega

theorem appendDirect_eq
    (fits : bytes.length + cache.dataHead + cache.dataLen ≤ cache.blockSize) :
    ∃ appended, cache.appendDirect mem bytes = some appended ∧ Appends cache bytes appended ∧
      appended.thrown = false := by
  have size_eq := sound.size_eq mem found
  have inside : cache.dataHead + cache.dataLen + bytes.length ≤ mem.size := by omega
  have content_eq : cache.content = slice mem.byte cache.dataHead cache.dataLen := by
    rw [content, found]
  have appends := Appends.of_block
    ⟨mem.size, splice mem.byte (cache.dataHead + cache.dataLen) bytes⟩ (len_eq small) size_eq
    (by omega) sound.size_lt (le_max_left _ _) (by rw [slice_splice_behind, content_eq]) id
  exact ⟨_, Option.bind_eq_some_iff.2 ⟨_, ByteRegion.write_eq inside, rfl⟩, appends, rfl⟩

theorem appendMoved_eq (fits : bytes.length + cache.dataLen ≤ cache.blockSize) :
    ∃ appended, cache.appendMoved mem bytes = some appended ∧ Appends cache bytes appended ∧
      appended.thrown = false := by
  have size_eq := sound.size_eq mem found
  have length_eq := sound.length_content
  have read : mem.read cache.dataHead cache.dataLen = some cache.content := by
    rw [ByteRegion.read_eq (sound.inside_block found), content, found]
  have inside : 0 + cache.content.length ≤ mem.size := by omega
  have behind : cache.dataLen + bytes.length ≤ mem.size := by omega
  have front := slice_splice_front mem.byte cache.content bytes
  rw [length_eq] at front
  have appends := Appends.of_block
    ⟨mem.size, splice (splice mem.byte 0 cache.content) cache.dataLen bytes⟩ (len_eq small) size_eq
    (by omega) sound.size_lt (le_max_left _ _) front (fun _ => rfl)
  exact ⟨_, Option.bind_eq_some_iff.2 ⟨_, read, Option.bind_eq_some_iff.2
    ⟨_, ByteRegion.write_eq inside, Option.bind_eq_some_iff.2
      ⟨_, ByteRegion.write_eq behind, rfl⟩⟩⟩, appends, rfl⟩

omit found sound in
theorem grownSize_bounds (full : cache.blockSize < bytes.length + cache.dataLen) :
    cache.dataLen + bytes.length ≤ cache.grownSize bytes.length ∧
      cache.grownSize bytes.length ≤ 2 * (cache.dataLen + bytes.length) ∧
      cache.grownSize bytes.length < 4294967296 := by
  unfold grownSize
  rw [len_eq small]
  unfold u32
  omega

theorem appendGrown_eq (fresh : Fresh) (full : cache.blockSize < bytes.length + cache.dataLen) :
    ∃ appended, cache.appendGrown mem fresh bytes = some appended ∧ Appends cache bytes appended ∧
      (appended.thrown = true → fresh = none) := by
  cases fresh with
  | none => exact ⟨_, rfl, ⟨sound, rfl, rfl, le_max_left _ _, id⟩, fun _ => rfl⟩
  | some byte =>
      obtain ⟨size_ge, size_le, size_lt⟩ := grownSize_bounds small full
      have length_eq := sound.length_content
      have read : mem.read cache.dataHead cache.dataLen = some cache.content := by
        rw [ByteRegion.read_eq (sound.inside_block found), content, found]
      have front := slice_splice_front byte cache.content bytes
      rw [length_eq] at front
      have inside : 0 + cache.content.length ≤ cache.grownSize bytes.length := by omega
      have appends := Appends.of_block ⟨cache.grownSize bytes.length,
          splice (splice byte 0 cache.content) cache.dataLen bytes⟩ (len_eq small) rfl
        (by rw [Nat.zero_add]; exact size_ge) size_lt
        (size_le.trans ((le_max_right _ _).trans (le_max_right _ _))) front (fun _ => rfl)
      exact ⟨_, Option.bind_eq_some_iff.2 ⟨_, read, Option.bind_eq_some_iff.2
        ⟨_, ByteRegion.write_eq inside, Option.bind_eq_some_iff.2
          ⟨_, ByteRegion.write_eq size_ge, rfl⟩⟩⟩, appends,
        fun thrown => absurd thrown Bool.false_ne_true⟩

end Block

theorem append_eq (sound : Sound cache) (open_bit : cache.finBit = false) (fresh : Fresh)
    (small : bytes.length + cache.dataHead + cache.dataLen < 4294967296) :
    ∃ appended, cache.append fresh bytes = some appended ∧ Appends cache bytes appended ∧
      (appended.thrown = true → fresh = none) := by
  rw [append, open_bit, if_neg Bool.false_ne_true]
  cases found : cache.mem with
  | none => exact appendFirst_eq found sound fresh (by omega)
  | some mem =>
      have direct_sum : u32 ((bytes.length : Int) + cache.dataHead + cache.dataLen) =
          bytes.length + cache.dataHead + cache.dataLen := by
        unfold u32
        omega
      have sum : u32 ((bytes.length : Int) + cache.dataLen) = bytes.length + cache.dataLen := by
        unfold u32
        omega
      dsimp only
      rw [direct_sum, sum]
      split
      · rename_i fits
        obtain ⟨appended, eq, appends, returns⟩ := appendDirect_eq found sound small fits
        exact ⟨appended, eq, appends, fun thrown => by rw [returns] at thrown; cases thrown⟩
      · split
        · rename_i full
          exact appendGrown_eq found sound small fresh full
        · rename_i fits
          obtain ⟨appended, eq, appends, returns⟩ :=
            appendMoved_eq found sound small (Nat.le_of_not_lt fits)
          exact ⟨appended, eq, appends, fun thrown => by rw [returns] at thrown; cases thrown⟩

theorem content_skip (sound : Sound cache) (length : Nat) :
    (cache.skip length).content = cache.content.drop length := by
  have length_eq := sound.length_content
  unfold skip
  cases found : cache.mem with
  | none => rw [content, found, List.drop_nil]
  | some mem =>
      have content_eq : cache.content = slice mem.byte cache.dataHead cache.dataLen := by
        rw [content, found]
      dsimp only
      split
      · rw [List.drop_of_length_le (by omega)]
        rfl
      · rename_i part
        obtain ⟨rest, len_eq⟩ := Nat.exists_eq_add_of_le (Nat.le_of_not_le part)
        have inside := sound.inside_block found
        have size_eq := sound.size_eq mem found
        have size_lt := sound.size_lt
        have head_eq : u32 ((cache.dataHead : Int) + length) = cache.dataHead + length := by
          unfold u32
          omega
        rw [head_eq, content_eq, content]
        show slice mem.byte (cache.dataHead + length) (cache.dataLen - length) = _
        rw [len_eq, slice_add, Nat.add_sub_cancel_left, List.drop_left' (length_slice ..)]

theorem Sound.skip (sound : Sound cache) (length : Nat) : Sound (cache.skip length) := by
  unfold CRawCache.skip
  cases found : cache.mem with
  | none => exact sound
  | some mem =>
      dsimp only
      split
      · exact ⟨fun _ => ⟨rfl, rfl⟩, fun _ missing => absurd missing (Option.some_ne_none _).symm,
          Or.inr rfl, show 0 < 4294967296 by decide⟩
      · rename_i part
        have inside := sound.inside_block found
        have size_eq := sound.size_eq mem found
        have size_lt := sound.size_lt
        have head_eq : u32 ((cache.dataHead : Int) + length) = cache.dataHead + length := by
          unfold u32
          omega
        rw [head_eq]
        refine ⟨fun missing => absurd missing (Option.some_ne_none _), ?_, Or.inl ?_, size_lt⟩
        · intro block same
          cases same
          exact size_eq
        · show cache.dataHead + length + (cache.dataLen - length) ≤ cache.blockSize
          omega

theorem skip_finBit (length : Nat) : (cache.skip length).finBit = cache.finBit := by
  unfold skip
  split
  · rfl
  · split <;> rfl

theorem skip_blockSize_le (length : Nat) : (cache.skip length).blockSize ≤ cache.blockSize := by
  unfold skip
  split
  · exact le_refl _
  · split
    · exact Nat.zero_le _
    · exact le_refl _

theorem skip_zero (sound : Sound cache) (nonempty : cache.dataLen ≠ 0) : cache.skip 0 = cache := by
  cases found : cache.mem with
  | none => exact absurd (sound.empty found).2 nonempty
  | some mem =>
      have inside := sound.inside_block found
      have size_eq := sound.size_eq mem found
      have size_lt := sound.size_lt
      have head_eq : u32 ((cache.dataHead : Int) + (0 : Nat)) = cache.dataHead := by
        unfold u32
        omega
      unfold skip
      rw [found]
      dsimp only
      rw [if_neg (by omega), head_eq, Nat.sub_zero, ← found]

/-- When there are 2^32 bytes with those of the call, `append` writes behind the block. -/
theorem append_overflow (sound : Sound cache) (open_bit : cache.finBit = false) (fresh : Fresh)
    (front : cache.dataHead = 0) (nonempty : cache.dataLen ≠ 0)
    (full : bytes.length + cache.dataLen = 4294967296) : cache.append fresh bytes = none := by
  cases found : cache.mem with
  | none => exact absurd (sound.empty found).2 nonempty
  | some mem =>
      have size_eq := sound.size_eq mem found
      have size_lt := sound.size_lt
      have sum_eq : u32 ((bytes.length : Int) + cache.dataHead + cache.dataLen) = 0 := by
        unfold u32
        omega
      have outside : ¬cache.dataHead + cache.dataLen + bytes.length ≤ mem.size := by omega
      rw [append, open_bit, if_neg Bool.false_ne_true, found]
      dsimp only
      rw [sum_eq, if_pos (Nat.zero_le _), appendDirect, ByteRegion.write, if_neg outside]
      rfl

/-- A sound cache that takes more bytes; the sum of the size of its block and of half as many bytes
does not wrap. -/
structure Modest (cache : CRawCache) : Prop extends Sound cache where
  blockSize_le : cache.blockSize ≤ 2863311530
  finBit_eq : cache.finBit = false

theorem modest_init : Modest init where
  toSound := sound_init
  blockSize_le := by decide
  finBit_eq := rfl

theorem Modest.skip (modest : Modest cache) (length : Nat) : Modest (cache.skip length) where
  toSound := modest.toSound.skip length
  blockSize_le := (skip_blockSize_le length).trans modest.blockSize_le
  finBit_eq := (skip_finBit length).trans modest.finBit_eq

theorem Modest.append (modest : Modest cache) (fresh : Fresh)
    (few : cache.content.length + bytes.length ≤ 1431655765) :
    ∃ appended, cache.append fresh bytes = some appended ∧ Modest appended.cache ∧
      (appended.cache.content =
        if appended.thrown then cache.content else cache.content ++ bytes) ∧
      (appended.thrown = true → fresh = none) := by
  rw [modest.length_content] at few
  have small : bytes.length + cache.dataHead + cache.dataLen < 4294967296 := by
    have := modest.blockSize_le
    rcases modest.inside with inside | missing
    · omega
    · have := (modest.empty missing).1
      omega
  obtain ⟨appended, eq, appends, thrown⟩ := append_eq modest.toSound modest.finBit_eq fresh small
  refine ⟨appended, eq, ⟨appends.sound, ?_, appends.finBit_eq.trans modest.finBit_eq⟩,
    appends.content_eq, thrown⟩
  refine appends.blockSize_le.trans (max_le modest.blockSize_le (max_le (by decide) (by omega)))

/-! ## Calls one after the other -/

/-- A call on a cache; `append` gets memory with some bytes. -/
inductive Call where
  | append (bytes : List UInt8) (byte : Nat → UInt8)
  | skip (length : Nat)

/-- What a call does to a queue. -/
def Call.after (queue : List UInt8) : Call → List UInt8
  | .append bytes _ => queue ++ bytes
  | .skip length => queue.drop length

/-- An `append` leads to at most 2^32 / 3 bytes; a block is at most twice as long as these. -/
def Call.Fits (queue : List UInt8) : Call → Prop
  | .append bytes _ => queue.length + bytes.length ≤ 1431655765
  | .skip _ => True

/-- Calls that stay below the limit. -/
def Fit : List UInt8 → List Call → Prop
  | _, [] => True
  | queue, call :: calls => call.Fits queue ∧ Fit (call.after queue) calls

/-- A call; there is no cache after it if it leaves the block or throws. -/
def perform (cache : CRawCache) : Call → Option CRawCache
  | .append bytes byte =>
      (cache.append (some byte) bytes).bind fun appended =>
        if appended.thrown then none else some appended.cache
  | .skip length => some (cache.skip length)

theorem Modest.perform {call : Call} (modest : Modest cache) (fits : call.Fits cache.content) :
    ∃ after, cache.perform call = some after ∧ Modest after ∧
      after.content = call.after cache.content := by
  cases call with
  | append bytes byte =>
      obtain ⟨⟨after, thrown⟩, eq, after_modest, content_eq, throws⟩ :=
        modest.append (some byte) fits
      cases thrown with
      | true => exact absurd (throws rfl) (Option.some_ne_none byte)
      | false => exact ⟨after, Option.bind_eq_some_iff.2 ⟨_, eq, rfl⟩, after_modest, content_eq⟩
  | skip length =>
      exact ⟨cache.skip length, rfl, modest.skip length, content_skip modest.toSound length⟩

theorem Modest.execute {calls : List Call} (modest : Modest cache) (fit : Fit cache.content calls) :
    ∃ after, Executions.execute CRawCache.perform cache calls = some after ∧ Modest after ∧
      after.content = calls.foldl Call.after cache.content := by
  induction calls generalizing cache with
  | nil => exact ⟨cache, rfl, modest, rfl⟩
  | cons call calls induction =>
      obtain ⟨next, performed, next_modest, next_eq⟩ := modest.perform fit.1
      obtain ⟨after, executed, after_modest, after_eq⟩ := induction next_modest (next_eq ▸ fit.2)
      refine ⟨after, ?_, after_modest, ?_⟩
      · rw [Executions.execute, performed]
        exact executed
      · rw [after_eq, next_eq, List.foldl_cons]

/-- A cache is a queue of bytes: whatever the calls were, `data` gives the bytes that were appended
and not skipped, and these lie inside the block. -/
theorem execute_isQueue {calls : List Call} (fit : Fit [] calls) :
    ∃ cache, Executions.execute CRawCache.perform init calls = some cache ∧
      cache.data = some (calls.foldl Call.after []) ∧
      cache.dataLen = (calls.foldl Call.after []).length ∧
      cache.dataHead + cache.dataLen ≤ cache.blockSize := by
  obtain ⟨cache, executed, modest, content_eq⟩ := modest_init.execute fit
  refine ⟨cache, executed, ?_, ?_, ?_⟩
  · rw [modest.data_eq, content_eq]
    rfl
  · rw [← modest.length_content, content_eq]
    rfl
  · rcases modest.inside with inside | missing
    · exact inside
    · rw [(modest.empty missing).1, (modest.empty missing).2]
      exact Nat.zero_le _

theorem execute_isQueue_sample :
    ∃ cache, Executions.execute CRawCache.perform init
        [.append [1, 2, 3] fun _ => 0, .skip 1, .append [4] fun _ => 0] = some cache ∧
      cache.data = some [2, 3, 4] := by
  obtain ⟨cache, executed, data_eq, -⟩ := execute_isQueue
    (show Fit [] [.append [1, 2, 3] fun _ => 0, .skip 1, .append [4] fun _ => 0] from
      ⟨show (3 : Nat) ≤ 1431655765 by omega, trivial, show (3 : Nat) ≤ 1431655765 by omega,
        trivial⟩)
  exact ⟨cache, executed, data_eq⟩

end CRawCache

end Spp
