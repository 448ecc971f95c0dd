import Spp.MicroThread.CacheRun

/-!
# Reads that leave the bytes in a cache

`read_cache_data` and `read_cache_begin` copy a part of the content to a buffer of the caller,
however it is divided into blocks, and they write nothing.
-/

namespace Spp.TRWCache

open TSkBuffMng

variable {ι : Type}

/-- The `memcpy` of both functions, which is left out if the buffer of the caller is `NULL`. -/
def copyInto (item : TSkBuffer) (start copyLen : Nat) (data : Option ByteRegion) (offset : Nat) :
    Option (Option ByteRegion) :=
  match data with
  | none => some none
  | some region => do
      let bytes ← item.memory.read start copyLen
      let region ← region.write offset bytes
      return some region

/-- The loop of `read_cache_data`. -/
def readDataLoop (pool : TSkBuffMng ι) : (leftLen offset : Nat) → (data : Option ByteRegion) →
    (list : List ι) → Option (Nat × Option ByteRegion)
  | _, offset, data, [] => some (offset, data)
  | leftLen, offset, data, ptr :: list => do
      let item ← pool.block ptr
      let copyLen := if leftLen ≤ item.dataLen then leftLen else item.dataLen
      let data ← copyInto item item.data copyLen data offset
      if leftLen - copyLen ≤ 0 then
        return (offset + copyLen, data)
      else
        readDataLoop pool (leftLen - copyLen) (offset + copyLen) data list

/-- `read_cache_data`: what it returns, and the buffer of the caller. -/
def readCacheData (cache : TRWCache ι) (pool : TSkBuffMng ι) (data : Option ByteRegion)
    (len : Nat) : Option (Nat × Option ByteRegion) :=
  readDataLoop pool len 0 data cache.list

/-- The loop of `read_cache_begin`. -/
def readLoop (pool : TSkBuffMng ι) : (posLeft copyLeft offset : Nat) → (data : Option ByteRegion) →
    (list : List ι) → Option (Nat × Option ByteRegion)
  | _, _, offset, data, [] => some (offset, data)
  | posLeft, copyLeft, offset, data, ptr :: list => do
      let item ← pool.block ptr
      let skipLen := if posLeft > item.dataLen then item.dataLen else posLeft
      let realLeft := item.dataLen - skipLen
      if realLeft = 0 then
        readLoop pool (posLeft - skipLen) copyLeft offset data list
      else
        let copyLen := if copyLeft > realLeft then realLeft else copyLeft
        let data ← copyInto item (item.data + skipLen) copyLen data offset
        if copyLeft - copyLen = 0 then
          return (offset + copyLen, data)
        else
          readLoop pool (posLeft - skipLen) (copyLeft - copyLen) (offset + copyLen) data list

/-- `read_cache_begin`: what it returns, and the buffer of the caller. -/
def readCacheBegin (cache : TRWCache ι) (pool : TSkBuffMng ι) (start : Nat)
    (data : Option ByteRegion) (len : Nat) : Option (Nat × Option ByteRegion) :=
  if start ≥ cache.len then some (0, data) else readLoop pool start len 0 data cache.list

/-- The blocks of the cache have their bytes inside their memory, and `len` is the number of
bytes. -/
structure WellFormed (queue : Queue ι) : Prop where
  inside : ∀ ptr ∈ queue.cache.list, ∃ block, queue.pool.block ptr = some block ∧
    block.data + block.dataLen ≤ block.memory.size
  len_eq : queue.cache.len = queue.content.length

variable {data : Option ByteRegion}

theorem Holds.wellFormed {queue : Queue ι} (holds : Holds queue) : WellFormed queue := by
  constructor
  · intro ptr member
    obtain ⟨block, found, fits⟩ := holds.sound.fits ptr member
    exact ⟨block, found, fits.inside.trans fits.fin_le⟩
  · exact holds.len_eq

/-! ## The buffer of the caller -/

/-- The buffer with these bytes. -/
def written (data : Option ByteRegion) (offset : Nat) (bytes : List UInt8) : Option ByteRegion :=
  data.map fun region => { region with byte := splice region.byte offset bytes }

/-- The buffer is `NULL` or has room for some bytes. -/
def HasRoom (data : Option ByteRegion) (count : Nat) : Prop :=
  ∀ region ∈ data, count ≤ region.size

@[simp] theorem written_nil (data : Option ByteRegion) (offset : Nat) :
    written data offset [] = data := by
  cases data with
  | none => rfl
  | some region => rw [written, Option.map_some, splice_nil]

theorem written_written (data : Option ByteRegion) (offset : Nat) (front back : List UInt8) :
    written (written data offset front) (offset + front.length) back =
      written data offset (front ++ back) := by
  cases data with
  | none => rfl
  | some region =>
      simp only [written, Option.map_some]
      rw [splice_splice]

theorem HasRoom.mono {few many : Nat} (room : HasRoom data many) (le : few ≤ many) :
    HasRoom data few :=
  fun region is_data => le.trans (room region is_data)

theorem HasRoom.written {count : Nat} (room : HasRoom data count) (offset : Nat)
    (bytes : List UInt8) : HasRoom (written data offset bytes) count := by
  intro region is_data
  obtain ⟨before, is_before, rfl⟩ := Option.map_eq_some_iff.mp is_data
  exact room before is_before

theorem copyInto_eq {item : TSkBuffer} {copyLen offset : Nat} (skipLen : Nat)
    (inside : item.data + item.dataLen ≤ item.memory.size) (le : skipLen + copyLen ≤ item.dataLen)
    (room : HasRoom data (offset + copyLen)) :
    copyInto item (item.data + skipLen) copyLen data offset =
      some (written data offset ((item.content.drop skipLen).take copyLen)) := by
  have split : item.content = slice item.memory.byte item.data skipLen ++
      (slice item.memory.byte (item.data + skipLen) copyLen ++
        slice item.memory.byte (item.data + skipLen + copyLen)
          (item.dataLen - (skipLen + copyLen))) := by
    rw [← slice_add, ← slice_add, TSkBuffer.content]
    congr 1
    omega
  have part : (item.content.drop skipLen).take copyLen =
      slice item.memory.byte (item.data + skipLen) copyLen := by
    rw [split, List.drop_left' (length_slice ..), List.take_left' (length_slice ..)]
  cases data with
  | none => rfl
  | some region =>
      have fits := room region rfl
      rw [copyInto, ByteRegion.read_eq (by omega), part]
      simp only [Option.bind_eq_bind, Option.bind_some]
      rw [ByteRegion.write_eq (by rw [length_slice]; exact fits)]
      rfl

/-! ## The loops -/

section Loops

variable {pool : TSkBuffMng ι} {list : List ι}

theorem readDataLoop_eq (inside : ∀ ptr ∈ list, ∃ block, pool.block ptr = some block ∧
      block.data + block.dataLen ≤ block.memory.size) (leftLen offset : Nat)
    (data : Option ByteRegion)
    (room : HasRoom data (offset + ((pool.content list).take leftLen).length)) :
    readDataLoop pool leftLen offset data list =
      some (offset + ((pool.content list).take leftLen).length,
        written data offset ((pool.content list).take leftLen)) := by
  induction list generalizing leftLen offset data with
  | nil => simp [readDataLoop]
  | cons ptr list induction =>
      obtain ⟨item, found, item_inside⟩ := inside ptr List.mem_cons_self
      have induction := induction fun other member => inside other (List.mem_cons_of_mem ptr member)
      have length_eq := item.length_content
      rw [content_cons found] at room ⊢
      rw [readDataLoop]
      simp only [found, Option.bind_eq_bind, Option.bind_some]
      by_cases enough : leftLen ≤ item.dataLen
      · have front : (item.content ++ pool.content list).take leftLen = item.content.take leftLen :=
          List.take_append_of_le_length (by omega)
        have length_front : (item.content.take leftLen).length = leftLen := by
          rw [List.length_take, length_eq, Nat.min_eq_left enough]
        rw [front, length_front] at room ⊢
        have copied := copyInto_eq 0 item_inside (by omega) room
        rw [Nat.add_zero, List.drop_zero] at copied
        rw [if_pos enough, copied]
        simp only [Option.bind_some, Nat.sub_self, le_refl, if_true]
        rfl
      · have front : (item.content ++ pool.content list).take leftLen =
            item.content ++ (pool.content list).take (leftLen - item.dataLen) := by
          rw [List.take_append, length_eq, List.take_of_length_le (by omega)]
        rw [front, List.length_append, length_eq, ← Nat.add_assoc] at room ⊢
        have copied := copyInto_eq 0 item_inside (by omega)
          (room.mono (Nat.le_add_right (offset + item.dataLen) _))
        rw [Nat.add_zero, List.drop_zero, List.take_of_length_le (by omega)] at copied
        rw [if_neg enough, copied]
        simp only [Option.bind_some]
        rw [if_neg (by omega), induction _ _ _ (room.written _ _), ← length_eq, written_written]

theorem readLoop_eq (inside : ∀ ptr ∈ list, ∃ block, pool.block ptr = some block ∧
      block.data + block.dataLen ≤ block.memory.size) (posLeft copyLeft offset : Nat)
    (data : Option ByteRegion)
    (room : HasRoom data (offset + (((pool.content list).drop posLeft).take copyLeft).length)) :
    readLoop pool posLeft copyLeft offset data list =
      some (offset + (((pool.content list).drop posLeft).take copyLeft).length,
        written data offset (((pool.content list).drop posLeft).take copyLeft)) := by
  induction list generalizing posLeft copyLeft offset data with
  | nil => simp [readLoop]
  | cons ptr list induction =>
      obtain ⟨item, found, item_inside⟩ := inside ptr List.mem_cons_self
      have induction := induction fun other member => inside other (List.mem_cons_of_mem ptr member)
      have length_eq := item.length_content
      rw [content_cons found] at room ⊢
      rw [readLoop]
      simp only [found, Option.bind_eq_bind, Option.bind_some]
      by_cases all_skipped : item.dataLen ≤ posLeft
      · have skip_eq : (if posLeft > item.dataLen then item.dataLen else posLeft) =
          item.dataLen := by
          split <;> omega
        have skipped : item.content.drop posLeft = [] := List.drop_eq_nil_of_le (by omega)
        rw [List.drop_append, skipped, List.nil_append, length_eq] at room ⊢
        rw [skip_eq, if_pos (Nat.sub_self _), induction _ _ _ _ room]
      · have skip_eq : (if posLeft > item.dataLen then item.dataLen else posLeft) = posLeft :=
          if_neg (by omega)
        have dropped : (item.content ++ pool.content list).drop posLeft =
            item.content.drop posLeft ++ pool.content list :=
          List.drop_append_of_le_length (by omega)
        have length_rest : (item.content.drop posLeft).length = item.dataLen - posLeft := by
          rw [List.length_drop, length_eq]
        rw [dropped] at room ⊢
        rw [skip_eq, if_neg (by omega)]
        by_cases more : copyLeft > item.dataLen - posLeft
        · have front : (item.content.drop posLeft ++ pool.content list).take copyLeft =
              item.content.drop posLeft ++
                (pool.content list).take (copyLeft - (item.dataLen - posLeft)) := by
            rw [List.take_append, length_rest, List.take_of_length_le (by omega)]
          rw [front, List.length_append, length_rest, ← Nat.add_assoc] at room ⊢
          have copied := copyInto_eq posLeft item_inside (by omega)
            (room.mono (Nat.le_add_right (offset + (item.dataLen - posLeft)) _))
          rw [List.take_of_length_le (by omega)] at copied
          have rest := induction 0 (copyLeft - (item.dataLen - posLeft))
            (offset + (item.dataLen - posLeft)) _ (room.written offset (item.content.drop posLeft))
          rw [if_pos more, copied]
          simp only [Option.bind_some]
          rw [if_neg (by omega), Nat.sub_self, rest, List.drop_zero, ← length_rest, written_written]
        · have front : (item.content.drop posLeft ++ pool.content list).take copyLeft =
              (item.content.drop posLeft).take copyLeft :=
            List.take_append_of_le_length (by omega)
          have length_front : ((item.content.drop posLeft).take copyLeft).length = copyLeft := by
            rw [List.length_take, length_rest, Nat.min_eq_left (by omega)]
          rw [front, length_front] at room ⊢
          rw [if_neg more, copyInto_eq posLeft item_inside (by omega) room]
          simp only [Option.bind_some]
          rw [if_pos (Nat.sub_self _)]
          rfl

end Loops

/-! ## The calls -/

section Calls

variable {queue : Queue ι} {start len : Nat}

theorem WellFormed.readCacheData_eq (formed : WellFormed queue)
    (room : HasRoom data (min len queue.content.length)) :
    queue.cache.readCacheData queue.pool data len =
      some (min len queue.content.length, written data 0 (queue.content.take len)) := by
  have length_eq : ((queue.pool.content queue.cache.list).take len).length =
      min len queue.content.length := List.length_take
  have read := readDataLoop_eq formed.inside len 0 data (by rwa [length_eq, Nat.zero_add])
  rwa [length_eq, Nat.zero_add] at read

theorem WellFormed.readCacheBegin_eq (formed : WellFormed queue)
    (room : HasRoom data (min len (queue.content.length - start))) :
    queue.cache.readCacheBegin queue.pool start data len =
      some (min len (queue.content.length - start),
        written data 0 ((queue.content.drop start).take len)) := by
  rw [readCacheBegin, formed.len_eq]
  split
  · rename_i behind
    rw [List.drop_eq_nil_of_le behind, List.take_nil, written_nil, Nat.sub_eq_zero_of_le behind,
      Nat.min_zero]
  · have length_eq : (((queue.pool.content queue.cache.list).drop start).take len).length =
        min len (queue.content.length - start) := by
      rw [List.length_take, List.length_drop]
      rfl
    have read := readLoop_eq formed.inside start len 0 data (by rwa [length_eq, Nat.zero_add])
    rwa [length_eq, Nat.zero_add] at read

/-- Both functions copy the bytes that a slice of the content has, whatever the blocks are: another
cache with the same content, with blocks of any kind, gives the same. -/
theorem wellFormed_reads {κ : Type} {other : Queue κ} (formed : WellFormed queue)
    (other_formed : WellFormed other) (same : other.content = queue.content)
    (data : Option ByteRegion) (start len : Nat) :
    (HasRoom data (min len (queue.content.length - start)) →
      queue.cache.readCacheBegin queue.pool start data len =
          some (min len (queue.content.length - start),
            written data 0 ((queue.content.drop start).take len)) ∧
        other.cache.readCacheBegin other.pool start data len =
          queue.cache.readCacheBegin queue.pool start data len) ∧
    (HasRoom data (min len queue.content.length) →
      queue.cache.readCacheData queue.pool data len =
          some (min len queue.content.length, written data 0 (queue.content.take len)) ∧
        other.cache.readCacheData other.pool data len =
          queue.cache.readCacheData queue.pool data len) := by
  constructor
  · intro room
    rw [formed.readCacheBegin_eq room, other_formed.readCacheBegin_eq (by rwa [same]), same]
    exact ⟨rfl, rfl⟩
  · intro room
    rw [formed.readCacheData_eq room, other_formed.readCacheData_eq (by rwa [same]), same]
    exact ⟨rfl, rfl⟩

end Calls

/-- A cache with the blocks `5`, no byte, and `6 7`. -/
def apartBlocks : Queue Nat where
  cache := ⟨[0, 1, 2], 3, 3⟩
  pool :=
    { freeList := []
      size := 8
      block := fun ptr =>
        if ptr = 0 then some ⟨8, 0, 8, 1, 1, ⟨8, fun _ => 5⟩⟩
        else if ptr = 1 then some ⟨8, 0, 8, 0, 0, ⟨8, fun _ => 0⟩⟩
        else some ⟨8, 0, 8, 6, 2, ⟨8, fun address => UInt8.ofNat address⟩⟩
      malloc := [] }

/-- One block of three bytes. -/
def joinedBlock : Queue Nat where
  cache := ⟨[0], 3, 1⟩
  pool :=
    { freeList := []
      size := 8
      block := fun _ => some ⟨8, 0, 8, 5, 3, ⟨8, fun address => UInt8.ofNat address⟩⟩
      malloc := [] }

theorem wellFormed_reads_middle :
    apartBlocks.cache.readCacheBegin apartBlocks.pool 1 (some ⟨1, fun _ => 0⟩) 1 =
        some (1, written (some ⟨1, fun _ => 0⟩) 0 [6]) ∧
      joinedBlock.cache.readCacheBegin joinedBlock.pool 1 (some ⟨1, fun _ => 0⟩) 1 =
        some (1, written (some ⟨1, fun _ => 0⟩) 0 [6]) := by
  have three : WellFormed apartBlocks := by
    refine ⟨fun ptr member => ?_, by decide⟩
    fin_cases member <;> exact ⟨_, rfl, by decide⟩
  have one : WellFormed joinedBlock := by
    refine ⟨fun ptr member => ⟨_, rfl, by decide⟩, by decide⟩
  have reads := (wellFormed_reads three one (by decide) (some ⟨1, fun _ => 0⟩) 1 1).1 (by
    intro region is_data
    cases is_data
    decide)
  exact ⟨reads.1, reads.2.trans reads.1⟩

end Spp.TRWCache
