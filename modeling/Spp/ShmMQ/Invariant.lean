import Spp.ShmMQ.Record

/-!
# What the queue holds

`Holds mq queue` is the representation invariant: the bytes between the two offsets are the
records of `queue`, in order, and they never fill the block.  The calls are then described on it by
one equation each, for any snapshot of the offsets that is behind the current state.
-/

namespace Spp
namespace CShmMQ

open CircularBuffer

/-- The records of a list of messages, one after the other. -/
def encodeAll (queue : List Message) : List UInt8 := (queue.map Message.encode).flatten

variable {mq : CShmMQ} {head used tail : Nat} {message : Message} {processExists : Int → Bool}
  {queue rest : List Message}

@[simp] theorem encodeAll_nil : encodeAll [] = [] := rfl

@[simp] theorem encodeAll_cons (message : Message) (queue : List Message) :
    encodeAll (message :: queue) = message.encode ++ encodeAll queue := rfl

@[simp] theorem encodeAll_append (left right : List Message) :
    encodeAll (left ++ right) = encodeAll left ++ encodeAll right := by
  simp [encodeAll]

theorem sixteen_mul_length_le (queue : List Message) :
    16 * queue.length ≤ (encodeAll queue).length := by
  induction queue with
  | nil => simp
  | cons message queue induction =>
      simp only [encodeAll_cons, List.length_append, Message.length_encode, Message.totalLen,
        List.length_cons]
      omega

/-- The queue memory holds exactly the messages `queue`. -/
structure Holds (mq : CShmMQ) (queue : List Message) : Prop where
  size_ge : 16 ≤ mq.blocksize
  size_lt : mq.blocksize < 2147483648
  head_le : mq.head ≤ mq.blocksize
  room : (encodeAll queue).length < mq.blocksize
  tail_eq : mq.tail = advance mq.blocksize mq.head (encodeAll queue).length
  content :
    sliceCircular mq.blocksize mq.block.byte mq.head (encodeAll queue).length = encodeAll queue

/-! ## Lengths computed from the offsets -/

theorem freeLen_eq (size_lt : mq.blocksize < 2147483648) (used_lt : used < mq.blocksize) :
    mq.freeLen head (advance mq.blocksize head used) = mq.blocksize - used := by
  unfold freeLen advance u32
  split <;> split <;> omega

theorem usedLen_eq (size_lt : mq.blocksize < 2147483648) (head_le : head ≤ mq.blocksize)
    (used_pos : 0 < used) (used_lt : used < mq.blocksize) :
    mq.usedLen head (advance mq.blocksize head used) = used := by
  unfold usedLen advance u32
  split <;> split <;> omega

theorem recordLen_eq (small : message.totalLen < 4294967296) :
    recordLen message.data.length = message.totalLen := by
  have total_def : message.totalLen = message.data.length + 16 := rfl
  unfold recordLen cHeadSize cSafeAreaLen u32
  omega

/-! ## Enqueue -/

/-- The queue with its message count raised by one. -/
def counted (mq : CShmMQ) : CShmMQ :=
  { mq with pstat := { mq.pstat with msgCount := i32 (mq.pstat.msgCount + 1) } }

theorem doCheck_valid (head_le : head ≤ mq.blocksize) (tail_le : tail ≤ mq.blocksize) :
    mq.doCheck processExists head tail = (true, mq) :=
  if_pos ⟨head_le, tail_le⟩

theorem storeRecord_eq (size_lt : mq.blocksize < 2147483648) (tail_le : mq.tail ≤ mq.blocksize)
    (total_le : message.totalLen ≤ mq.blocksize) :
    mq.storeRecord mq.tail message.data message.flow =
      some (.stored (i32 (mq.pstat.msgCount + 1)), (mq.append message).counted) := by
  have total_def : message.totalLen = message.data.length + 16 := rfl
  have total_eq : u32 ((8 : Nat) + 2 * (4 : Nat) + (message.data.length : Int)) =
      message.totalLen := by
    unfold u32
    omega
  have tailLen_eq : u32 ((mq.blocksize : Int) - mq.tail) = mq.blocksize - mq.tail := by
    unfold u32
    omega
  have record_eq : recordLen message.data.length = message.totalLen := recordLen_eq (by omega)
  simp only [storeRecord, cHeadSize, cSafeAreaLen, record_eq, total_eq, tailLen_eq,
    Option.bind_eq_bind]
  by_cases fits : message.totalLen ≤ mq.blocksize - mq.tail
  · rw [if_pos fits, putContiguous_eq size_lt (by omega)]
    rfl
  · rw [if_neg fits]
    by_cases headFits : 12 ≤ mq.blocksize - mq.tail
    · rw [if_pos ⟨headFits, by omega⟩, putSplitData_eq size_lt (by omega) (by omega) total_le]
      rfl
    · rw [if_neg (fun both => headFits both.1),
        putSplitHead_eq size_lt tail_le (by omega) total_le]
      rfl

/-- Data whose record length wraps never fits: every branch writes outside the block. -/
theorem storeRecord_wrapped {data : List UInt8} (flow : UInt32)
    (size_lt : mq.blocksize < 2147483648) (wraps : 4294967296 ≤ data.length + 16)
    (length_lt : data.length < 4294967296) : mq.storeRecord tail data flow = none := by
  have total_lt : recordLen data.length < 16 := by
    unfold recordLen cHeadSize cSafeAreaLen u32
    omega
  rw [Option.eq_none_iff_forall_ne_some]
  intro result stored
  simp only [storeRecord, Option.bind_eq_bind] at stored
  split at stored
  · simp only [putContiguous, Option.bind_eq_bind, Option.bind_eq_some_iff] at stored
    obtain ⟨_, ⟨_, first, _, second, _⟩, _⟩ := stored
    have first_le := le_of_copyIn first
    have second_le := le_of_copyIn second
    omega
  · split at stored
    · rename_i short fits
      have firstLen_eq : u32 (u32 (mq.blocksize - tail) - cSafeAreaLen - cHeadSize) =
          u32 (mq.blocksize - tail) - 12 := by
        have := fits.1
        unfold cSafeAreaLen cHeadSize u32 at *
        omega
      rw [Option.bind_eq_some_iff] at stored
      obtain ⟨_, written, _⟩ := stored
      simp only [putSplitData, Option.bind_eq_bind, firstLen_eq] at written
      rw [Option.bind_eq_some_iff] at written
      obtain ⟨_, first, written⟩ := written
      have first_le := le_of_copyIn first
      split at written
      · simp only [Option.bind_eq_some_iff] at written
        obtain ⟨_, front, _, back, _⟩ := written
        have front_le := le_of_copyIn front
        have back_le := le_of_copyIn back
        simp only [List.length_take, List.length_drop, cSafeAreaLen, u32] at *
        omega
      · simp only [Option.bind_eq_some_iff] at written
        obtain ⟨_, front, _⟩ := written
        have front_le := le_of_copyIn front
        simp only [List.length_take, cSafeAreaLen, u32] at *
        omega
    · simp only [putSplitHead, Option.bind_eq_bind, Option.bind_eq_some_iff] at stored
      obtain ⟨_, ⟨_, first, _, second, _, third, _⟩, _⟩ := stored
      have first_le := le_of_copyIn first
      have second_le := le_of_copyIn second
      have third_le := le_of_copyIn third
      omega

/-- `enqueue`: full when the record would close the gap to the head, and otherwise one circular
write at the tail. -/
theorem enqueue_eq (processExists : Int → Bool) (size_lt : mq.blocksize < 2147483648)
    (head_le : mq.head ≤ mq.blocksize) (used_lt : used < mq.blocksize)
    (tail_eq : mq.tail = advance mq.blocksize mq.head used)
    (small : message.totalLen < 4294967296) :
    mq.enqueue processExists message.data message.flow =
      if mq.blocksize - used ≤ message.totalLen then
        some (.mqfull, mq)
      else
        some (.stored (i32 (mq.pstat.msgCount + 1)), (mq.append message).counted) := by
  have tail_le : mq.tail ≤ mq.blocksize := tail_eq ▸ advance_le head_le used_lt.le
  have free_eq : mq.freeLen mq.head mq.tail = mq.blocksize - used := by
    rw [tail_eq]
    exact freeLen_eq size_lt used_lt
  simp only [enqueue, enqueueAt, doCheck_valid head_le tail_le, free_eq, recordLen_eq small]
  by_cases full : mq.blocksize - used ≤ message.totalLen
  · rw [if_pos full, if_pos full]
  · rw [if_neg full, if_neg full, storeRecord_eq size_lt tail_le (by omega)]

theorem Holds.append (holds : Holds mq queue)
    (room : (encodeAll queue).length + message.totalLen < mq.blocksize) :
    Holds (mq.append message) (queue ++ [message]) := by
  have total_len : (encodeAll (queue ++ [message])).length =
      (encodeAll queue).length + message.totalLen := by simp
  constructor
  · exact holds.size_ge
  · exact holds.size_lt
  · exact holds.head_le
  · rw [total_len]
    exact room
  · show advance mq.blocksize mq.tail message.totalLen = _
    rw [total_len, holds.tail_eq, advance_advance holds.head_le room.le]
    rfl
  · have fits : (encodeAll queue).length + message.encode.length ≤ mq.blocksize := by
      simpa using room.le
    have appended := sliceCircular_append mq.block.byte holds.head_le fits
    rw [Message.length_encode, ← holds.tail_eq, holds.content] at appended
    rw [total_len, encodeAll_append, encodeAll_cons, encodeAll_nil, List.append_nil]
    exact appended

theorem Holds.counted (holds : Holds mq queue) : Holds mq.counted queue :=
  { holds with }

/-! ## Dequeue -/

/-- The queue after its oldest record was taken out. -/
def removeFirst (mq : CShmMQ) (message : Message) : CShmMQ :=
  { mq with
    head := advance mq.blocksize mq.head message.totalLen
    pstat := {
      msgCount := i32 (mq.pstat.msgCount - 1)
      processCount := i32 (mq.pstat.processCount + 1)
      curflow := i32 message.flow.toNat } }

theorem Holds.removeFirst (holds : Holds mq (message :: rest)) :
    Holds (mq.removeFirst message) rest := by
  have total_len : (encodeAll (message :: rest)).length =
      message.totalLen + (encodeAll rest).length := by simp
  have room := holds.room
  rw [total_len] at room
  have content := holds.content
  rw [total_len, sliceCircular_add _ holds.head_le room.le, encodeAll_cons] at content
  constructor
  · exact holds.size_ge
  · exact holds.size_lt
  · exact advance_le holds.head_le (by omega)
  · show (encodeAll rest).length < mq.blocksize
    omega
  · show mq.tail = advance mq.blocksize (advance mq.blocksize mq.head message.totalLen) _
    rw [advance_advance holds.head_le room.le, ← total_len]
    exact holds.tail_eq
  · exact (List.append_inj content (by simp)).2

theorem Holds.first_record (holds : Holds mq (message :: rest)) :
    sliceCircular mq.blocksize mq.block.byte mq.head 12 =
        recordHead message.totalLen message.flow ∧
      sliceCircular mq.blocksize mq.block.byte (advance mq.blocksize mq.head 12)
        (message.data.length + 4) = message.data ++ le32 cSafeAreaVal := by
  have total_len : (encodeAll (message :: rest)).length =
      12 + (message.data.length + 4) + (encodeAll rest).length := by
    simp [Message.totalLen]
    omega
  have room := holds.room
  have content := holds.content
  rw [total_len] at room content
  rw [sliceCircular_add _ holds.head_le room.le, encodeAll_cons] at content
  have record := (List.append_inj content (by simp [Message.totalLen]; omega)).1
  rw [sliceCircular_add _ holds.head_le (by omega)] at record
  constructor
  · rw [← take_encode, ← record, List.take_left' (by simp)]
  · rw [← drop_encode, ← record, List.drop_left' (by simp)]

theorem dequeue_empty (processExists : Int → Bool) (buf : ByteRegion) (holds : Holds mq []) :
    mq.dequeue processExists buf = some ⟨.mqempty, buf, 0, none, mq⟩ := by
  have tail_eq := holds.tail_eq
  rw [encodeAll_nil, List.length_nil, advance_zero holds.head_le] at tail_eq
  simp [dequeue, dequeueAt, tail_eq, doCheck_valid holds.head_le holds.head_le]

theorem checkAndClear_valid (head_le : mq.head ≤ mq.blocksize) (tail_le : mq.tail ≤ mq.blocksize) :
    mq.checkAndClear processExists = mq.clear := by
  simp [checkAndClear, doCheck_valid head_le tail_le]

theorem Holds.tail_le (holds : Holds mq queue) : mq.tail ≤ mq.blocksize := by
  rw [holds.tail_eq]
  exact advance_le holds.head_le holds.room.le

/-- The record at the head is taken out when the caller's buffer holds the data and the trailing
mark, and otherwise the queue is cleared; no other exit is possible. -/
theorem takeRecord_eq (processExists : Int → Bool) (holds : Holds mq (message :: rest))
    (shown : message.totalLen ≤ used) (used_lt : used < mq.blocksize) (buf : ByteRegion) :
    mq.takeRecord processExists mq.head used buf =
      if message.data.length + 4 > buf.size then
        some ⟨.otfbuff, buf, 0, some message.flow, mq.clear⟩
      else
        some ⟨.taken, { buf with byte := splice buf.byte 0 (message.data ++ le32 cSafeAreaVal) },
          message.data.length, some message.flow,
          { mq with
            head := advance mq.blocksize mq.head message.totalLen
            pstat := { mq.pstat with
              curflow := i32 message.flow.toNat
              processCount := i32 (mq.pstat.processCount + 1) } }⟩ := by
  have size_ge := holds.size_ge
  have size_lt := holds.size_lt
  have total_def : message.totalLen = message.data.length + 16 := rfl
  have total_eq := totalLen_recordHead message.flow
    (show message.totalLen < 4294967296 by omega)
  obtain ⟨head_bytes, data_bytes⟩ := holds.first_record
  have dataLen_eq : u32 ((message.totalLen : Int) - (8 : Nat) - (4 : Nat)) =
      message.data.length + 4 := by
    unfold u32
    omega
  have trailer_eq : u32 (((message.data.length + 4 : Nat) : Int) - (4 : Nat)) =
      message.data.length := by
    unfold u32
    omega
  have mark_eq : readLe32 (le32 cSafeAreaVal) = cSafeAreaVal := by decide
  simp only [takeRecord, Option.bind_eq_bind]
  rw [getHead_eq holds.size_lt (by omega) holds.head_le, Option.bind_some, head_bytes]
  simp only [readLe32_recordHead, total_eq, flow_recordHead]
  rw [if_neg (by simp), if_neg (by omega)]
  simp only [cHeadSize, cSafeAreaLen, dataLen_eq, checkAndClear_valid holds.head_le holds.tail_le]
  by_cases small : message.data.length + 4 > buf.size
  · rw [if_pos small, if_pos small]
    rfl
  · rw [if_neg small, if_neg small, getData_eq holds.size_lt
      (advance_le holds.head_le (by omega)) (by omega) (by omega), Option.bind_some, data_bytes]
    have marked : slice (splice buf.byte 0 (message.data ++ le32 cSafeAreaVal))
        message.data.length 4 = le32 cSafeAreaVal := by
      have both := slice_splice buf.byte 0 (message.data ++ le32 cSafeAreaVal)
      rw [List.length_append, length_le32, slice_add, Nat.zero_add] at both
      exact (List.append_inj both (by simp)).2
    simp only [trailer_eq]
    rw [ByteRegion.read_eq (by simp only; omega), Option.bind_some, marked, mark_eq,
      if_neg (by simp), advance_advance holds.head_le (by omega),
      show 12 + (message.data.length + 4) = message.totalLen by omega]
    rfl

theorem takeOut_eq (processExists : Int → Bool) (holds : Holds mq (message :: rest))
    (shown : message.totalLen ≤ used) (used_lt : used < mq.blocksize) (buf : ByteRegion) :
    mq.takeOut processExists mq.head (advance mq.blocksize mq.head used) buf =
      if message.data.length + 4 > buf.size then
        some ⟨.otfbuff, buf, 0, some message.flow, mq.clear⟩
      else
        some ⟨.taken, { buf with byte := splice buf.byte 0 (message.data ++ le32 cSafeAreaVal) },
          message.data.length, some message.flow, mq.removeFirst message⟩ := by
  have total_def : message.totalLen = message.data.length + 16 := rfl
  have used_eq := usedLen_eq holds.size_lt holds.head_le (by omega) used_lt
  have lowered : Holds
      { mq with pstat := { mq.pstat with msgCount := i32 (mq.pstat.msgCount - 1) } }
      (message :: rest) := { holds with }
  refine Eq.trans ?_ (takeRecord_eq processExists lowered shown used_lt buf)
  rw [takeOut]
  congr 1

theorem dequeue_nonempty (processExists : Int → Bool) (holds : Holds mq (message :: rest))
    (buf : ByteRegion) :
    mq.dequeue processExists buf =
      mq.takeOut processExists mq.head
        (advance mq.blocksize mq.head (encodeAll (message :: rest)).length) buf := by
  have nonempty : ¬ mq.head = mq.tail := by
    rw [holds.tail_eq]
    exact fun same => advance_ne_self (by simp [Message.totalLen]) holds.room same.symm
  rw [dequeue, dequeueAt, doCheck_valid holds.head_le holds.tail_le]
  simp only [if_neg nonempty, ← holds.tail_eq]

end CShmMQ
end Spp
