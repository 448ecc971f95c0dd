import Spp.ShmMQ.Invariant

/-!
# Arbitrary lengths and arbitrary memory

The lengths of `enqueue` and `dequeue` are 32-bit unsigned expressions.  Here the calls are taken on
every length that the caller can give and on every content that the shared memory can have.

`enqueue` adds sixteen to the length of the data, which may wrap round, and `dequeue` subtracts
sixteen from the length in the header.
-/

namespace Spp
namespace CShmMQ

open CircularBuffer

variable {processExists : Int → Bool} {mq : CShmMQ}

/-! ## Enqueue -/

/-- The bytes that can be written. -/
def room (mq : CShmMQ) : Nat :=
  if mq.head > mq.tail then mq.head - mq.tail else mq.head + mq.blocksize - mq.tail

/-- `enqueue` refuses the data and does nothing, or there is room for the record and only free bytes
of the block change. -/
def EnqueueInBounds (processExists : Int → Bool) (mq : CShmMQ) (data : List UInt8) (flow : UInt32) :
    Prop :=
  mq.enqueue processExists data flow = some (.mqfull, mq) ∨
    ∃ count after, mq.enqueue processExists data flow = some (.stored count, after) ∧
      data.length + 16 < mq.room ∧ after.head = mq.head ∧
      (∀ address, after.block.byte address ≠ mq.block.byte address →
        ∃ index < data.length + 16, address = wrap mq.blocksize mq.tail index) ∧
      ∀ index < mq.blocksize - mq.room, after.block.byte (wrap mq.blocksize mq.head index) =
        mq.block.byte (wrap mq.blocksize mq.head index)

variable {head dataLen : Nat} {buf : ByteRegion}

theorem room_le (head_le : mq.head ≤ mq.blocksize) (tail_le : mq.tail ≤ mq.blocksize) :
    mq.room ≤ mq.blocksize := by
  unfold room
  split <;> omega

theorem freeLen_eq_room (size_lt : mq.blocksize < 2147483648) (tail_le : mq.tail ≤ mq.blocksize) :
    mq.freeLen mq.head mq.tail = mq.room := by
  unfold freeLen room u32
  split
  · rfl
  · omega

theorem wrap_head_eq (head_le : mq.head ≤ mq.blocksize) (tail_le : mq.tail ≤ mq.blocksize)
    {index : Nat} (unread : index < mq.blocksize - mq.room) :
    wrap mq.blocksize mq.head index = wrap mq.blocksize mq.tail (mq.room + index) := by
  unfold wrap room at *
  split at unread <;> split <;> split <;> omega

/-- Every address is outside the block, or some number of bytes after the tail. -/
theorem exists_wrap {size start address : Nat} (start_le : start ≤ size) (inside : address < size) :
    ∃ index < size, address = wrap size start index := by
  by_cases before : address < start
  · refine ⟨size - start + address, by omega, ?_⟩
    unfold wrap
    split <;> omega
  · refine ⟨address - start, by omega, ?_⟩
    unfold wrap
    split <;> omega

theorem append_inBounds (head_le : mq.head ≤ mq.blocksize) (tail_le : mq.tail ≤ mq.blocksize)
    {message : Message} (fits : message.totalLen < mq.room) :
    (∀ address, (mq.append message).block.byte address ≠ mq.block.byte address →
      ∃ index < message.totalLen, address = wrap mq.blocksize mq.tail index) ∧
    ∀ index < mq.blocksize - mq.room, (mq.append message).block.byte
      (wrap mq.blocksize mq.head index) = mq.block.byte (wrap mq.blocksize mq.head index) := by
  have room_le := room_le head_le tail_le
  have length_eq : message.encode.length = message.totalLen := Message.length_encode message
  constructor
  · intro address changed
    by_cases inside : address < mq.blocksize
    · obtain ⟨index, index_lt, address_eq⟩ := exists_wrap tail_le inside
      refine ⟨index, ?_, address_eq⟩
      by_contra beyond
      apply changed
      rw [address_eq]
      exact spliceCircular_outside _ tail_le (by omega) index_lt
    · exact absurd (spliceCircular_beyond _ tail_le (by omega) (by omega)) changed
  · intro index unread
    rw [wrap_head_eq head_le tail_le unread]
    exact spliceCircular_outside _ tail_le (by omega) (by omega)

/-- `enqueue` looks whether there is room for the length that it has computed. -/
theorem enqueue_of_valid (size_lt : mq.blocksize < 2147483648) (head_le : mq.head ≤ mq.blocksize)
    (tail_le : mq.tail ≤ mq.blocksize) (data : List UInt8) (flow : UInt32) :
    mq.enqueue processExists data flow =
      if mq.room ≤ recordLen data.length then some (.mqfull, mq)
      else mq.storeRecord mq.tail data flow := by
  rw [enqueue, enqueueAt, doCheck_valid head_le tail_le, ← freeLen_eq_room size_lt tail_le]

/-- `enqueue` keeps to the free bytes unless the length of the record wraps round to less than they
are. -/
theorem enqueue_inBounds_iff (processExists : Int → Bool) {mq : CShmMQ}
    (size_lt : mq.blocksize < 2147483648) (head_le : mq.head ≤ mq.blocksize)
    (tail_le : mq.tail ≤ mq.blocksize) (data : List UInt8) (length_lt : data.length < 4294967296)
    (flow : UInt32) :
    EnqueueInBounds processExists mq data flow ↔
      data.length + 16 < 4294967296 ∨ mq.room ≤ data.length + 16 - 4294967296 := by
  have room_le := room_le head_le tail_le
  have enqueue_eq : mq.enqueue processExists data flow = _ :=
    enqueue_of_valid size_lt head_le tail_le data flow
  by_cases wraps : 4294967296 ≤ data.length + 16
  · have short : recordLen data.length = data.length + 16 - 4294967296 := by
      unfold recordLen cHeadSize cSafeAreaLen u32
      omega
    rw [short] at enqueue_eq
    constructor
    · intro in_bounds
      right
      by_contra fits
      rw [if_neg fits, storeRecord_wrapped flow size_lt wraps length_lt] at enqueue_eq
      cases in_bounds with
      | inl full => cases enqueue_eq.symm.trans full
      | inr stored =>
          obtain ⟨count, after, stored, _⟩ := stored
          cases enqueue_eq.symm.trans stored
    · rintro (wrong | full)
      · omega
      · rw [if_pos full] at enqueue_eq
        exact Or.inl enqueue_eq
  · refine ⟨fun _ => Or.inl (by omega), fun _ => ?_⟩
    have total_eq : recordLen data.length = data.length + 16 := by
      unfold recordLen cHeadSize cSafeAreaLen u32
      omega
    rw [total_eq] at enqueue_eq
    by_cases full : mq.room ≤ data.length + 16
    · rw [if_pos full] at enqueue_eq
      exact Or.inl enqueue_eq
    · right
      rw [if_neg full] at enqueue_eq
      have fits : Message.totalLen ⟨data, flow⟩ < mq.room := Nat.lt_of_not_le full
      have stored := storeRecord_eq size_lt tail_le (fits.le.trans room_le)
      obtain ⟨changed, unread⟩ := append_inBounds head_le tail_le fits
      exact ⟨_, _, enqueue_eq.trans stored, fits, rfl, changed, unread⟩

theorem enqueue_two_inBounds :
    EnqueueInBounds (fun _ => false) (init 64 fun _ => 0) [1, 2] 7 :=
  (enqueue_inBounds_iff (fun _ => false) (by decide) (by decide) (by decide) [1, 2] (by decide) 7).2
    (Or.inl (by decide))

/-- The length `-1` of a blob. -/
theorem enqueue_negative_inBounds_wrong :
    ¬ EnqueueInBounds (fun _ => false) (init 64 fun _ => 0) (List.replicate 4294967295 0) 7 := by
  have length_eq : (List.replicate 4294967295 (0 : UInt8)).length = 4294967295 :=
    List.length_replicate
  have room_lt : ¬ (init 64 fun _ => 0).room ≤
      recordLen (List.replicate 4294967295 (0 : UInt8)).length := by
    rw [length_eq]
    decide
  have enqueue_eq : (init 64 fun _ => 0).enqueue (fun _ => false) _ _ = _ :=
    enqueue_of_valid (by decide) (by decide) (by decide) (List.replicate 4294967295 0) 7
  rw [if_neg room_lt, storeRecord_wrapped 7 (by decide) (by rw [length_eq]; decide)
    (by rw [length_eq]; decide)] at enqueue_eq
  rintro (full | ⟨count, after, stored, _⟩)
  · cases enqueue_eq.symm.trans full
  · cases enqueue_eq.symm.trans stored

/-! ## Dequeue -/

/-- `dequeue` touches nothing outside the block and the buffer, and leaves valid offsets. -/
def DequeueRobust (processExists : Int → Bool) (mq : CShmMQ) (buf : ByteRegion) : Prop :=
  ∃ result, mq.dequeue processExists buf = some result ∧
    result.mq.head ≤ mq.blocksize ∧ result.mq.tail ≤ mq.blocksize

/-- The head at `head`. -/
def storedHead (mq : CShmMQ) : List UInt8 :=
  sliceCircular mq.blocksize mq.block.byte mq.head (cSafeAreaLen + cHeadSize)

/-- The length in it. -/
def storedLen (mq : CShmMQ) : Nat := readLe32 (mq.storedHead.drop cSafeAreaLen)

/-- The bytes that can be read. -/
def unread (mq : CShmMQ) : Nat :=
  if mq.tail > mq.head then mq.tail - mq.head else mq.tail + mq.blocksize - mq.head

/-- The length in the header is that of a record, or of one that the buffer cannot hold.  The last
two cases, and the bound in the second one, are about blocks of almost 4 GiB. -/
def Delimited (mq : CShmMQ) (bufSize : Nat) : Prop :=
  bufSize + 12 < mq.storedLen ∨
    (16 ≤ mq.storedLen ∧ advance mq.blocksize mq.head 12 + mq.storedLen < 4294967296 + 12) ∨
    (mq.storedLen < 12 ∧ bufSize + 12 < mq.storedLen + 4294967296) ∨
    (advance mq.blocksize mq.head 12 + mq.storedLen < 12 ∧
      advance mq.blocksize mq.head 12 + mq.storedLen + 4294967296 ≤ 2 * mq.blocksize + 12)

/-- The memory that `dequeue` survives: the offsets are valid, and so is the length of a header that
has the mark and claims no more than what is unread; or the offsets are not valid and no other
process is clearing them. -/
def Survivable (processExists : Int → Bool) (mq : CShmMQ) (bufSize : Nat) : Prop :=
  if mq.head ≤ mq.blocksize ∧ mq.tail ≤ mq.blocksize then
    mq.head = mq.tail ∨ (mq.head + 12 < 4294967296 ∧
      (readLe32 mq.storedHead ≠ cSafeAreaVal ∨ mq.unread < mq.storedLen ∨ mq.Delimited bufSize))
  else
    mq.pid = 0 ∨ processExists mq.pid = false

instance (mq : CShmMQ) (bufSize : Nat) : Decidable (mq.Delimited bufSize) :=
  inferInstanceAs (Decidable (_ ∨ _ ∨ _ ∨ _))

theorem usedLen_eq_unread (size_lt : mq.blocksize < 4294967296) (head_le : mq.head ≤ mq.blocksize)
    (tail_le : mq.tail ≤ mq.blocksize) :
    mq.usedLen mq.head mq.tail = mq.unread ∧ mq.unread ≤ mq.blocksize := by
  unfold usedLen unread u32
  split
  · exact ⟨rfl, by omega⟩
  · omega

theorem getHead_wrapped (size_lt : mq.blocksize < 4294967296) (size_ge : 12 ≤ mq.blocksize)
    (head_le : head ≤ mq.blocksize) (wraps : 4294967296 ≤ head + 12) : mq.getHead head = none := by
  have after_eq : u32 ((head : Int) + (4 : Nat) + (8 : Nat)) = head + 12 - 4294967296 := by
    unfold u32
    omega
  have beyond : mq.block.read head (4 + 8) = none := by
    apply if_neg
    unfold blocksize at *
    omega
  simp only [getHead, cSafeAreaLen, cHeadSize, Option.bind_eq_bind, after_eq]
  rw [if_neg (by omega), beyond, Option.bind_none]

theorem getData_outside (size_lt : mq.blocksize < 4294967296) (head_le : head ≤ mq.blocksize)
    (data_lt : dataLen < 4294967296)
    (outside : 4294967296 ≤ head + dataLen ∨ 2 * mq.blocksize < head + dataLen) :
    mq.getData buf head dataLen = none := by
  have read_le : ∀ {offset len : Nat} {bytes : List UInt8},
      mq.block.read offset len = some bytes → offset + len ≤ mq.blocksize := by
    intro offset len bytes read
    by_contra beyond
    cases (if_neg beyond).symm.trans read
  rw [Option.eq_none_iff_forall_ne_some]
  intro result copied
  simp only [getData, Option.bind_eq_bind] at copied
  split at copied
  case isTrue cut =>
      simp only [Option.bind_eq_some_iff] at copied
      obtain ⟨_, _, _, _, _, second, _⟩ := copied
      have second_le := read_le second
      unfold u32 at *
      omega
  case isFalse whole =>
      simp only [Option.bind_eq_some_iff] at copied
      obtain ⟨_, all, _⟩ := copied
      have all_le := read_le all
      unfold u32 at *
      omega

theorem checkAndClear_kept (head_le : mq.head ≤ mq.blocksize) (tail_le : mq.tail ≤ mq.blocksize) :
    (mq.checkAndClear processExists).head ≤ mq.blocksize ∧
      (mq.checkAndClear processExists).tail ≤ mq.blocksize := by
  rw [checkAndClear_valid head_le tail_le]
  exact ⟨Nat.zero_le _, Nat.zero_le _⟩

/-- The call returns, with both places inside. -/
def Kept (size : Nat) (result : Option DequeueResult) : Prop :=
  ∃ kept, result = some kept ∧ kept.mq.head ≤ size ∧ kept.mq.tail ≤ size

theorem takeData_kept_iff (size_lt : mq.blocksize < 4294967296) (tail_le : mq.tail ≤ mq.blocksize)
    (head_le : head ≤ mq.blocksize) (data_lt : dataLen < 4294967296)
    (buf_lt : buf.size < 4294967296) (buf_ge : dataLen ≤ buf.size) (flow : UInt32) :
    Kept mq.blocksize (do
      let (buf, head) ← mq.getData buf head dataLen
      let mq := { mq with head }
      let dataLen := u32 (dataLen - cSafeAreaLen)
      let mark ← buf.read dataLen 4
      if readLe32 mark ≠ cSafeAreaVal then
        return ⟨.chkfailEnd, buf, 0, some flow, mq.checkAndClear processExists⟩
      else
        return ⟨.taken, buf, dataLen, some flow,
          { mq with pstat := { mq.pstat with
              curflow := i32 flow.toNat
              processCount := i32 (mq.pstat.processCount + 1) } }⟩) ↔
      4 ≤ dataLen ∧ head + dataLen < 4294967296 ∧ head + dataLen ≤ 2 * mq.blocksize := by
  by_cases inside : head + dataLen < 4294967296 ∧ head + dataLen ≤ 2 * mq.blocksize
  · have after_le : advance mq.blocksize head dataLen ≤ mq.blocksize := by
      unfold advance
      split <;> omega
    rw [getData_of_lt size_lt head_le inside.1 inside.2 buf_ge]
    simp only [Option.bind_eq_bind, Option.bind_some, cSafeAreaLen]
    by_cases marked : 4 ≤ dataLen
    · refine ⟨fun _ => ⟨marked, inside⟩, fun _ => ?_⟩
      have trailer_eq : u32 ((dataLen : Int) - (4 : Nat)) = dataLen - 4 := by
        unfold u32
        omega
      rw [trailer_eq, ByteRegion.read_eq (by simp only; omega), Option.bind_some]
      split
      · refine ⟨_, rfl, ?_⟩
        exact checkAndClear_kept after_le tail_le
      · exact ⟨_, rfl, after_le, tail_le⟩
    · refine ⟨?_, fun fits => absurd fits.1 marked⟩
      rintro ⟨kept, result, _⟩
      have beyond : ∀ byte, ByteRegion.read ⟨buf.size, byte⟩ (u32 ((dataLen : Int) - (4 : Nat))) 4 =
          none := by
        intro byte
        apply if_neg
        unfold u32
        dsimp only
        omega
      rw [beyond, Option.bind_none] at result
      cases result
  · refine ⟨?_, fun fits => absurd fits.2 inside⟩
    rintro ⟨kept, result, _⟩
    rw [getData_outside size_lt head_le data_lt (by omega)] at result
    cases result

theorem delimited_iff (size_lt : mq.blocksize < 4294967296) (head_le : mq.head ≤ mq.blocksize)
    (size_ge : 12 ≤ mq.blocksize) (used_ge : mq.storedLen ≤ mq.blocksize) (bufSize : Nat) :
    mq.Delimited bufSize ↔ bufSize < u32 ((mq.storedLen : Int) - cHeadSize - cSafeAreaLen) ∨
      (4 ≤ u32 ((mq.storedLen : Int) - cHeadSize - cSafeAreaLen) ∧
        advance mq.blocksize mq.head 12 + u32 ((mq.storedLen : Int) - cHeadSize - cSafeAreaLen) <
          4294967296 ∧
        advance mq.blocksize mq.head 12 + u32 ((mq.storedLen : Int) - cHeadSize - cSafeAreaLen) ≤
          2 * mq.blocksize) := by
  have data_le : advance mq.blocksize mq.head 12 ≤ mq.blocksize := advance_le head_le size_ge
  have len_lt : mq.storedLen < 4294967296 := readLe32_lt _
  unfold Delimited cHeadSize cSafeAreaLen u32
  omega

theorem takeRecord_kept_iff (mq : CShmMQ) (size_ge : 12 ≤ mq.blocksize)
    (size_lt : mq.blocksize < 4294967296) (head_le : mq.head ≤ mq.blocksize)
    (tail_le : mq.tail ≤ mq.blocksize) {used : Nat} (used_le : used ≤ mq.blocksize)
    (buf_lt : buf.size < 4294967296) :
    Kept mq.blocksize (mq.takeRecord processExists mq.head used buf) ↔
      mq.head + 12 < 4294967296 ∧ (readLe32 mq.storedHead ≠ cSafeAreaVal ∨
        used < mq.storedLen ∨ mq.Delimited buf.size) := by
  have cleared : (mq.checkAndClear processExists).head ≤ _ ∧ _ := checkAndClear_kept head_le tail_le
  by_cases wraps : mq.head + 12 < 4294967296
  · have head_eq : sliceCircular mq.blocksize mq.block.byte mq.head 12 = mq.storedHead := rfl
    have len_eq : readLe32 (mq.storedHead.drop cSafeAreaLen) = mq.storedLen := rfl
    rw [takeRecord, getHead_of_lt size_lt size_ge head_le wraps, head_eq]
    simp only [Option.bind_eq_bind, Option.bind_some, len_eq]
    by_cases marked : readLe32 mq.storedHead ≠ cSafeAreaVal
    · rw [if_pos marked]
      exact ⟨fun _ => ⟨wraps, Or.inl marked⟩, fun _ => ⟨_, rfl, cleared⟩⟩
    · rw [if_neg marked]
      by_cases long : mq.storedLen > used
      · rw [if_pos long]
        exact ⟨fun _ => ⟨wraps, Or.inr (Or.inl long)⟩, fun _ => ⟨_, rfl, cleared⟩⟩
      · rw [if_neg long]
        have delimited := delimited_iff size_lt head_le size_ge (by omega) buf.size
        by_cases outside : u32 ((mq.storedLen : Int) - cHeadSize - cSafeAreaLen) > buf.size
        · rw [if_pos outside]
          exact ⟨fun _ => ⟨wraps, Or.inr (Or.inr (delimited.2 (Or.inl outside)))⟩,
            fun _ => ⟨_, rfl, cleared⟩⟩
        · rw [if_neg outside]
          refine (takeData_kept_iff size_lt tail_le (advance_le head_le size_ge) (by omega) buf_lt
            (Nat.le_of_not_lt outside) _).trans ?_
          constructor
          · intro copied
            exact ⟨wraps, Or.inr (Or.inr (delimited.2 (Or.inr copied)))⟩
          · rintro ⟨_, wrong | wrong | fits⟩
            · exact absurd wrong marked
            · exact absurd wrong long
            · exact (delimited.1 fits).resolve_left outside
  · refine ⟨?_, fun fits => absurd fits.1 wraps⟩
    rintro ⟨kept, result, _⟩
    rw [takeRecord, getHead_wrapped size_lt size_ge head_le (by omega)] at result
    cases result

theorem takeOut_kept_iff (size_ge : 12 ≤ mq.blocksize) (size_lt : mq.blocksize < 4294967296)
    (head_le : mq.head ≤ mq.blocksize) (tail_le : mq.tail ≤ mq.blocksize)
    (buf_lt : buf.size < 4294967296) :
    Kept mq.blocksize (mq.takeOut processExists mq.head mq.tail buf) ↔
      mq.head + 12 < 4294967296 ∧ (readLe32 mq.storedHead ≠ cSafeAreaVal ∨
        mq.unread < mq.storedLen ∨ mq.Delimited buf.size) := by
  obtain ⟨used_eq, used_le⟩ := usedLen_eq_unread size_lt head_le tail_le
  have used_eq' : ∀ stat, usedLen { mq with pstat := stat } mq.head mq.tail = mq.unread :=
    fun _ => used_eq
  rw [takeOut]
  dsimp only
  rw [used_eq']
  exact takeRecord_kept_iff
    { mq with pstat := { mq.pstat with msgCount := i32 (mq.pstat.msgCount - 1) } } size_ge size_lt
      head_le tail_le used_le buf_lt

/-- `dequeue` survives exactly this memory. -/
theorem dequeue_robust_iff (processExists : Int → Bool) {mq : CShmMQ}
    (size_ge : 12 ≤ mq.blocksize) (size_lt : mq.blocksize < 4294967296) {buf : ByteRegion}
    (buf_lt : buf.size < 4294967296) :
    DequeueRobust processExists mq buf ↔ Survivable processExists mq buf.size := by
  unfold DequeueRobust Survivable dequeue dequeueAt
  by_cases valid : mq.head ≤ mq.blocksize ∧ mq.tail ≤ mq.blocksize
  · obtain ⟨head_le, tail_le⟩ := valid
    rw [doCheck_valid head_le tail_le, if_pos ⟨head_le, tail_le⟩]
    dsimp only
    by_cases empty : mq.head = mq.tail
    · rw [if_pos empty]
      exact ⟨fun _ => Or.inl empty, fun _ => ⟨_, rfl, head_le, tail_le⟩⟩
    · rw [if_neg empty]
      have taken : Kept mq.blocksize (mq.takeOut processExists mq.head mq.tail buf) ↔ _ :=
        takeOut_kept_iff size_ge size_lt head_le tail_le buf_lt
      constructor
      · intro kept
        exact Or.inr (taken.1 kept)
      · rintro (wrong | fits)
        · exact absurd wrong empty
        · exact taken.2 fits
  · rw [doCheck, if_neg valid, if_neg valid]
    by_cases clears : mq.pid = 0 ∨ processExists mq.pid = false
    · rw [if_pos clears]
      exact ⟨fun _ => clears, fun _ => ⟨_, rfl, Nat.zero_le _, Nat.zero_le _⟩⟩
    · rw [if_neg clears]
      refine ⟨?_, fun wrong => absurd wrong clears⟩
      rintro ⟨result, same, offsets⟩
      cases same
      exact absurd offsets valid

/-- A queue of one record. -/
def oneRecord : CShmMQ :=
  { init 64 (fun _ => 0) with
    tail := 20
    block := ⟨52, splice (fun _ => 0) 0 (Message.encode ⟨[1, 2, 3, 4], 7⟩)⟩ }

theorem oneRecord_robust : DequeueRobust (fun _ => false) oneRecord ⟨64, fun _ => 0⟩ := by
  apply (dequeue_robust_iff (fun _ => false) (by decide) (by decide) (by decide)).2
  unfold Survivable
  rw [if_pos (by decide)]
  exact Or.inr ⟨by decide, Or.inr (Or.inr (by decide))⟩

/-- A header with the mark that claims twelve bytes in all. -/
def shortRecord : CShmMQ :=
  { init 64 (fun _ => 0) with
    tail := 20
    block := ⟨52, splice (fun _ => 0) 0 (recordHead 12 7)⟩ }

/-- The length of the data is four less than 0, and wraps: the trailing mark is looked for 4 GiB
behind the record. -/
theorem shortRecord_robust_wrong :
    ¬ DequeueRobust (fun _ => false) shortRecord ⟨64, fun _ => 0⟩ := by
  have refused : (shortRecord.dequeue (fun _ => false) ⟨64, fun _ => 0⟩).isSome = false := by
    decide
  rintro ⟨result, taken, _⟩
  rw [taken] at refused
  cases refused

end CShmMQ
end Spp
