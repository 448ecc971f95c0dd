import Spp.ShmMQ.Basic

/-!
# One record in the block

The three writing branches of `enqueue` cut a record at three kinds of places; the two reading
branches of `dequeue` cut it again at the end of its head and at the end of the block.  Here each
of them is shown to be one circular write, or one circular read, of the encoded message.
-/

namespace Spp
namespace CShmMQ

open CircularBuffer

/-- A message and its flow. -/
structure Message where
  data : List UInt8
  flow : UInt32
deriving DecidableEq

/-- Number of bytes of the record of a message: the head, the data and the two marks. -/
def Message.totalLen (message : Message) : Nat := message.data.length + 16

/-- The record of a message. -/
def Message.encode (message : Message) : List UInt8 :=
  recordHead message.totalLen message.flow ++ message.data ++ le32 cSafeAreaVal

variable {mq : CShmMQ} {offset head dataLen : Nat} {bytes : List UInt8} {message : Message}
  {buf : ByteRegion}

@[simp] theorem length_recordHead (totalLen : Nat) (flow : UInt32) :
    (recordHead totalLen flow).length = 12 := rfl

@[simp] theorem Message.length_encode (message : Message) :
    message.encode.length = message.totalLen := by
  simp [Message.encode, Message.totalLen]
  omega

/-- The queue with some bytes of its block overwritten. -/
def spliced (mq : CShmMQ) (offset : Nat) (bytes : List UInt8) : CShmMQ :=
  { mq with block := { mq.block with byte := splice mq.block.byte offset bytes } }

@[simp] theorem blocksize_spliced (mq : CShmMQ) (offset : Nat) (bytes : List UInt8) :
    (mq.spliced offset bytes).blocksize = mq.blocksize := rfl

@[simp] theorem tail_spliced (mq : CShmMQ) (offset : Nat) (bytes : List UInt8) :
    (mq.spliced offset bytes).tail = mq.tail := rfl

theorem copyIn_eq (inside : offset + bytes.length ≤ mq.blocksize) :
    mq.copyIn offset bytes = some (mq.spliced offset bytes) := by
  rw [copyIn, ByteRegion.write_eq inside]
  rfl

theorem le_of_copyIn {next : CShmMQ} (copied : mq.copyIn offset bytes = some next) :
    bytes.length ≤ mq.blocksize ∧ next.blocksize = mq.blocksize := by
  by_cases inside : offset + bytes.length ≤ mq.blocksize
  · rw [copyIn_eq inside] at copied
    cases copied
    exact ⟨by omega, rfl⟩
  · have refused : mq.block.write offset bytes = none := if_neg inside
    rw [copyIn, refused] at copied
    cases copied

theorem spliced_spliced (mq : CShmMQ) {next : Nat} (front back : List UInt8)
    (adjacent : next = offset + front.length) :
    (mq.spliced offset front).spliced next back = mq.spliced offset (front ++ back) := by
  subst adjacent
  simp only [spliced, splice_splice]

/-- The queue after a record was written at its tail. -/
def append (mq : CShmMQ) (message : Message) : CShmMQ :=
  { mq with
    tail := advance mq.blocksize mq.tail message.totalLen
    block := { mq.block with
      byte := spliceCircular mq.blocksize mq.block.byte mq.tail message.encode } }

theorem append_of_fits (fits : mq.tail + message.totalLen ≤ mq.blocksize) :
    mq.append message =
      { mq.spliced mq.tail message.encode with tail := mq.tail + message.totalLen } := by
  have encode_fits : mq.tail + message.encode.length ≤ mq.blocksize := by simpa using fits
  rw [append, spliceCircular_eq_splice _ encode_fits, advance, if_pos fits]
  rfl

/-- A record cut by the end is a write up to the end and a write from the start. -/
theorem append_of_cut {front back : List UInt8} (cut : message.encode = front ++ back)
    (front_len : mq.tail + front.length = mq.blocksize) (back_pos : 0 < back.length) :
    mq.append message =
      { (mq.spliced mq.tail front).spliced 0 back with
        tail := mq.tail + message.totalLen - mq.blocksize } := by
  have total : message.totalLen = front.length + back.length := by
    rw [← Message.length_encode, cut, List.length_append]
  rw [append, cut, spliceCircular_append _ front_len, advance, if_neg (by omega)]
  rfl

theorem putContiguous_eq (size_lt : mq.blocksize < 2147483648)
    (fits : mq.tail + message.totalLen ≤ mq.blocksize) :
    mq.putContiguous mq.tail message.data (recordHead message.totalLen message.flow) =
      some (mq.append message) := by
  have bound : mq.tail + message.data.length + 16 ≤ mq.blocksize := by
    simpa [Message.totalLen, Nat.add_assoc] using fits
  simp only [putContiguous, cSafeAreaLen, cHeadSize, Option.bind_eq_bind]
  rw [copyIn_eq (by simp; omega), Option.bind_some, copyIn_eq (by simp; omega), Option.bind_some,
    copyIn_eq (by simp; omega), Option.bind_some,
    spliced_spliced _ _ _ (by simp), spliced_spliced _ _ _ (by simp [Nat.add_assoc]),
    append_of_fits fits]
  simp only [tail_spliced, Message.encode, Message.totalLen, u32]
  congr 2
  omega

theorem le32_cSafeAreaVal : le32 cSafeAreaVal = [0x53, 0x50, 0x50, 0x58] := by
  decide

/-- The byte-wise write of the trailing mark is a write of its two parts. -/
theorem putSplitMark_eq {secondLen : Nat} (pos : 0 < secondLen) (short : secondLen < 4)
    (size_ge : 4 ≤ mq.blocksize) :
    mq.putSplitMark secondLen =
      some ((mq.spliced (mq.blocksize - (4 - secondLen))
        ((le32 cSafeAreaVal).take (4 - secondLen))).spliced 0
          ((le32 cSafeAreaVal).drop (4 - secondLen))) := by
  obtain rfl | rfl | rfl : secondLen = 1 ∨ secondLen = 2 ∨ secondLen = 3 := by omega
  all_goals
    simp only [putSplitMark, Option.bind_eq_bind, Nat.reduceEqDiff, if_false, if_true,
      le32_cSafeAreaVal, Nat.reduceSub, List.take, List.drop]
    rw [copyIn_eq (by simp; omega), Option.bind_some, copyIn_eq (by simp; omega),
      Option.bind_some, copyIn_eq (by simp; omega), Option.bind_some, copyIn_eq (by simp; omega)]
  · rw [spliced_spliced mq _ _ (by simp; omega), spliced_spliced mq _ _ (by simp; omega)]
    rfl
  · rw [spliced_spliced mq _ _ (by simp; omega), spliced_spliced _ _ _ (by simp)]
    rfl
  · rw [spliced_spliced _ _ _ (by simp), spliced_spliced _ _ _ (by simp)]
    rfl

theorem putSplitData_eq (size_lt : mq.blocksize < 2147483648)
    (head_fits : mq.tail + 12 ≤ mq.blocksize) (cut : mq.blocksize < mq.tail + message.totalLen)
    (total_le : message.totalLen ≤ mq.blocksize) :
    mq.putSplitData mq.tail (mq.blocksize - mq.tail) message.totalLen message.data
        (recordHead message.totalLen message.flow) =
      some (mq.append message) := by
  obtain ⟨firstLen, firstLen_eq⟩ : ∃ firstLen, mq.blocksize = mq.tail + 12 + firstLen :=
    Nat.exists_eq_add_of_le head_fits
  have total_eq : message.totalLen = message.data.length + 16 := rfl
  have first_eq : u32 (((mq.blocksize - mq.tail : Nat) : Int) - (4 : Nat) - (8 : Nat)) =
      firstLen := by
    unfold u32
    omega
  have second_eq : u32 ((message.data.length : Int) + (4 : Nat) - firstLen) =
      message.data.length + 4 - firstLen := by
    unfold u32
    omega
  have offset_eq : u32 ((mq.tail : Int) + (i32 message.totalLen - i32 mq.blocksize)) =
      mq.tail + message.totalLen - mq.blocksize := by
    rw [i32_of_lt (by omega), i32_of_lt size_lt, u32]
    omega
  simp only [putSplitData, cSafeAreaLen, cHeadSize, Option.bind_eq_bind]
  rw [copyIn_eq (by simp; omega), Option.bind_some]
  simp only [first_eq, second_eq]
  by_cases marked : 4 ≤ message.data.length + 4 - firstLen
  · have tail_part : (message.data.drop firstLen).take (message.data.length + 4 - firstLen - 4) =
        message.data.drop firstLen := by
      apply List.take_of_length_le
      simp
      omega
    have encode_cut : message.encode =
        (recordHead message.totalLen message.flow ++ message.data.take firstLen) ++
          (message.data.drop firstLen ++ le32 cSafeAreaVal) := by
      rw [List.append_assoc, ← List.append_assoc (message.data.take firstLen),
        List.take_append_drop, ← List.append_assoc, Message.encode]
    rw [if_pos marked, tail_part, copyIn_eq (by simp; omega), Option.bind_some,
      copyIn_eq (by simp; omega), Option.bind_some, copyIn_eq (by simp; omega), Option.bind_some,
      spliced_spliced mq _ _ (by simp), spliced_spliced _ _ _ (by simp; omega),
      append_of_cut encode_cut (by simp; omega) (by simp)]
    simp only [tail_spliced, blocksize_spliced, offset_eq]
    rfl
  · have data_part : u32 ((firstLen : Int) - (4 : Nat) +
        ((message.data.length + 4 - firstLen : Nat) : Int)) = message.data.length := by
      unfold u32
      omega
    have encode_cut : message.encode =
        (recordHead message.totalLen message.flow ++ message.data ++
          (le32 cSafeAreaVal).take (4 - (message.data.length + 4 - firstLen))) ++
          (le32 cSafeAreaVal).drop (4 - (message.data.length + 4 - firstLen)) := by
      simp [Message.encode, List.append_assoc]
    rw [if_neg marked, data_part, List.take_length, copyIn_eq (by simp; omega), Option.bind_some,
      putSplitMark_eq (by omega) (by omega) (by simp; omega), Option.bind_some,
      spliced_spliced mq _ _ (by simp), spliced_spliced mq _ _ (by simp; omega),
      append_of_cut encode_cut (by simp; omega) (by simp; omega)]
    simp only [tail_spliced, blocksize_spliced, offset_eq]
    rfl

theorem putSplitHead_eq (size_lt : mq.blocksize < 2147483648) (tail_le : mq.tail ≤ mq.blocksize)
    (head_cut : mq.blocksize < mq.tail + 12) (total_le : message.totalLen ≤ mq.blocksize) :
    mq.putSplitHead mq.tail (mq.blocksize - mq.tail) message.data
        (recordHead message.totalLen message.flow) =
      some (mq.append message) := by
  obtain ⟨tailLen, tailLen_eq⟩ : ∃ tailLen, mq.blocksize = mq.tail + tailLen :=
    Nat.exists_eq_add_of_le tail_le
  have total_eq : message.totalLen = message.data.length + 16 := rfl
  have second_eq : u32 ((4 : Nat) + (8 : Nat) - (tailLen : Int)) = 12 - tailLen := by
    unfold u32
    omega
  have end_eq : u32 (((12 - tailLen : Nat) : Int) + message.data.length + (4 : Nat)) =
      mq.tail + message.totalLen - mq.blocksize := by
    unfold u32
    omega
  have encode_cut : message.encode =
      (recordHead message.totalLen message.flow).take tailLen ++
        ((recordHead message.totalLen message.flow).drop tailLen ++
          (message.data ++ le32 cSafeAreaVal)) := by
    rw [← List.append_assoc, List.take_append_drop, Message.encode, List.append_assoc]
  have head_part : ((recordHead message.totalLen message.flow).drop tailLen).take (12 - tailLen) =
      (recordHead message.totalLen message.flow).drop tailLen := by
    apply List.take_of_length_le
    simp
  rw [show mq.blocksize - mq.tail = tailLen by omega]
  simp only [putSplitHead, cSafeAreaLen, cHeadSize, Option.bind_eq_bind]
  rw [copyIn_eq (by simp; omega), Option.bind_some, second_eq, head_part,
    copyIn_eq (by simp; omega), Option.bind_some, copyIn_eq (by simp; omega), Option.bind_some,
    copyIn_eq (by simp; omega), Option.bind_some, spliced_spliced _ _ _ (by simp),
    spliced_spliced _ _ _ (by simp), append_of_cut encode_cut (by simp; omega) (by simp), end_eq]
  rfl

theorem getHead_of_lt (size_lt : mq.blocksize < 4294967296) (size_ge : 12 ≤ mq.blocksize)
    (head_le : head ≤ mq.blocksize) (no_wrap : head + 12 < 4294967296) :
    mq.getHead head =
      some (sliceCircular mq.blocksize mq.block.byte head 12, advance mq.blocksize head 12) := by
  have after_eq : u32 ((head : Int) + (4 : Nat) + (8 : Nat)) = head + 12 := by
    unfold u32
    omega
  simp only [getHead, cSafeAreaLen, cHeadSize, Option.bind_eq_bind]
  by_cases cut : mq.blocksize < head + 12
  · have first_eq : u32 ((mq.blocksize : Int) - head) = mq.blocksize - head := by
      unfold u32
      omega
    have second_eq : u32 ((4 : Nat) + (8 : Nat) - ((mq.blocksize - head : Nat) : Int)) =
        12 - (mq.blocksize - head) := by
      unfold u32
      omega
    simp only [after_eq, first_eq, second_eq]
    rw [if_pos cut, ByteRegion.read_eq (by unfold blocksize at *; omega), Option.bind_some,
      ByteRegion.read_eq (by unfold blocksize at *; omega), Option.bind_some,
      sliceCircular_eq_append _ head_le (by omega), advance, if_neg (by omega)]
    congr 2
    omega
  · have end_eq : u32 ((head : Int) + ((8 : Nat) + (4 : Nat))) = head + 12 := by
      unfold u32
      omega
    simp only [after_eq, end_eq]
    rw [if_neg cut, ByteRegion.read_eq (by unfold blocksize at *; omega), Option.bind_some,
      sliceCircular_eq_slice _ (by omega), advance, if_pos (by omega)]
    rfl

theorem getHead_eq (size_lt : mq.blocksize < 2147483648) (size_ge : 12 ≤ mq.blocksize)
    (head_le : head ≤ mq.blocksize) :
    mq.getHead head =
      some (sliceCircular mq.blocksize mq.block.byte head 12, advance mq.blocksize head 12) :=
  getHead_of_lt (by omega) size_ge head_le (by omega)

/-- The reader's data is the circular read of `dataLen` bytes, put at the start of the buffer. -/
theorem getData_of_lt (size_lt : mq.blocksize < 4294967296) (head_le : head ≤ mq.blocksize)
    (no_wrap : head + dataLen < 4294967296) (data_le : head + dataLen ≤ 2 * mq.blocksize)
    (buf_ge : dataLen ≤ buf.size) :
    mq.getData buf head dataLen =
      some ({ buf with
          byte := splice buf.byte 0 (sliceCircular mq.blocksize mq.block.byte head dataLen) },
        advance mq.blocksize head dataLen) := by
  have after_eq : u32 ((head : Int) + dataLen) = head + dataLen := by
    unfold u32
    omega
  simp only [getData, Option.bind_eq_bind]
  by_cases cut : mq.blocksize < head + dataLen
  · have first_eq : u32 ((mq.blocksize : Int) - head) = mq.blocksize - head := by
      unfold u32
      omega
    have second_eq : u32 ((dataLen : Int) - ((mq.blocksize - head : Nat) : Int)) =
        dataLen - (mq.blocksize - head) := by
      unfold u32
      omega
    simp only [after_eq, first_eq, second_eq]
    rw [if_pos cut, ByteRegion.read_eq (by unfold blocksize at *; omega), Option.bind_some,
      ByteRegion.write_eq (by simp; omega), Option.bind_some,
      ByteRegion.read_eq (by unfold blocksize at *; omega), Option.bind_some,
      ByteRegion.write_eq (by simp; omega), Option.bind_some,
      sliceCircular_eq_append _ head_le (by omega), advance, if_neg (by omega),
      ← splice_splice]
    simp only [length_slice, Nat.zero_add]
    congr 2
    omega
  · simp only [after_eq]
    rw [if_neg cut, ByteRegion.read_eq (by unfold blocksize at *; omega), Option.bind_some,
      ByteRegion.write_eq (by simp; omega), Option.bind_some,
      sliceCircular_eq_slice _ (by omega), advance, if_pos (by omega)]
    rfl

theorem getData_eq (size_lt : mq.blocksize < 2147483648) (head_le : head ≤ mq.blocksize)
    (data_le : dataLen ≤ mq.blocksize) (buf_ge : dataLen ≤ buf.size) :
    mq.getData buf head dataLen =
      some ({ buf with
          byte := splice buf.byte 0 (sliceCircular mq.blocksize mq.block.byte head dataLen) },
        advance mq.blocksize head dataLen) :=
  getData_of_lt (by omega) head_le (by omega) (by omega) buf_ge

/-! ## Decoding a record -/

theorem take_encode (message : Message) :
    message.encode.take 12 = recordHead message.totalLen message.flow := by
  rw [Message.encode, List.append_assoc, List.take_left' (by simp)]

theorem drop_encode (message : Message) :
    message.encode.drop 12 = message.data ++ le32 cSafeAreaVal := by
  rw [Message.encode, List.append_assoc, List.drop_left' (by simp)]

theorem readLe32_recordHead (totalLen : Nat) (flow : UInt32) :
    readLe32 (recordHead totalLen flow) = cSafeAreaVal := by
  rw [recordHead, List.append_assoc, readLe32_le32_append]
  rfl

theorem totalLen_recordHead {totalLen : Nat} (flow : UInt32) (small : totalLen < 4294967296) :
    readLe32 ((recordHead totalLen flow).drop cSafeAreaLen) = totalLen := by
  rw [recordHead, List.append_assoc, List.drop_left' (by simp [cSafeAreaLen]),
    readLe32_le32_append, Nat.mod_eq_of_lt small]

theorem flow_recordHead (totalLen : Nat) (flow : UInt32) :
    UInt32.ofNat (readLe32 ((recordHead totalLen flow).drop (cSafeAreaLen + 4))) = flow := by
  have exact_word := readLe32_le32_append flow.toNat []
  rw [List.append_nil, Nat.mod_eq_of_lt flow.toNat_lt] at exact_word
  rw [recordHead, List.drop_left' (by simp [cSafeAreaLen]), exact_word]
  simp

end CShmMQ
end Spp
