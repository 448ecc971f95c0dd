import Spp.Lib.Circular
import Spp.Lib.MachineInt

/-!
# The shared-memory message queue `CShmMQ`

The queue of `comm/tbase/tshmcommu.cpp`: one block of bytes with a `head` and a `tail` offset into
it, both in `[0, blocksize_]`.  A record is `SPPX`, its total length, the flow, the data and `SPPX`
again, and may be cut by the end of the block at any byte.

Offsets and lengths are 32-bit unsigned; `u32` reduces the value of an unsigned expression and
`i32` the value of a signed conversion.  Every access to the block or to the caller's buffer is
checked: `none` is an access outside of it.  `enqueue` and `dequeue` read the shared offsets once
and work on the copies from then on, so the bodies are stated on a snapshot (`enqueueAt`,
`dequeueAt`) and the calls take the snapshot of the current state.
-/

namespace Spp

/-- `C_HEAD_SIZE` -/
def cHeadSize : Nat := 8

/-- `C_SAFE_AREA_LEN` -/
def cSafeAreaLen : Nat := 4

/-- `C_SAFE_AREA_VAL` -/
def cSafeAreaVal : Nat := 0x58505053

/-- `COMMU_ERR_MQFULL` -/
def commuErrMqfull : Int := -121

/-- `COMMU_ERR_MQEMPTY` -/
def commuErrMqempty : Int := -122

/-- `COMMU_ERR_OTFBUFF` -/
def commuErrOtfbuff : Int := -123

/-- `COMMU_ERR_CHKFAIL` -/
def commuErrChkfail : Int := -126

/-- `Q_STATINFO`: the counters in front of the queue memory (`flag` is not used by the queue). -/
structure QStatinfo where
  msgCount : Int
  processCount : Int
  curflow : Int
deriving DecidableEq, Repr

/-- `CShmMQ` -/
structure CShmMQ where
  head : Nat
  tail : Nat
  pid : Int
  block : ByteRegion
  pstat : QStatinfo

namespace CShmMQ

/-- `blocksize_` -/
def blocksize (mq : CShmMQ) : Nat := mq.block.size

/-- `CShmMQ::init` on a new segment: `shmsize` less the two offsets and the pid field is the data
section, whose bytes are whatever the segment held. -/
def init (shmsize : Nat) (bytes : Nat → UInt8) : CShmMQ where
  head := 0
  tail := 0
  pid := 0
  block := { size := shmsize - 12, byte := bytes }
  pstat := { msgCount := 0, processCount := 0, curflow := 0 }

/-- `clear` -/
def clear (mq : CShmMQ) : CShmMQ :=
  { mq with
    head := 0
    tail := 0
    pid := 0
    pstat := { mq.pstat with msgCount := 0 } }

/-- `CShmMQ::do_check`; `processExists` answers `CMisc::check_process_exist`. -/
def doCheck (processExists : Int → Bool) (mq : CShmMQ) (head tail : Nat) : Bool × CShmMQ :=
  if head ≤ mq.blocksize ∧ tail ≤ mq.blocksize then
    (true, mq)
  else if mq.pid = 0 ∨ processExists mq.pid = false then
    (false, mq.clear)
  else
    (false, mq)

/-- Bytes are written to the block. -/
def copyIn (mq : CShmMQ) (offset : Nat) (bytes : List UInt8) : Option CShmMQ :=
  (mq.block.write offset bytes).map fun block => { mq with block }

/-- The return statements of `enqueue`. -/
inductive EnqueueExit where
  /-- The snapshot of the offsets is not valid. -/
  | chkfail
  /-- There is no room for the record. -/
  | mqfull
  /-- The record is in the queue; the value is the new message count. -/
  | stored (count : Int)
deriving DecidableEq, Repr

/-- Value returned by `enqueue`. -/
def EnqueueExit.ret : EnqueueExit → Int
  | .chkfail => commuErrChkfail
  | .mqfull => commuErrMqfull
  | .stored count => count

/-- `sHead` of `enqueue`: the mark, the total length and the flow. -/
def recordHead (totalLen : Nat) (flow : UInt32) : List UInt8 :=
  le32 cSafeAreaVal ++ le32 totalLen ++ le32 flow.toNat

/-- The branch of `enqueue` for a record that fits before the end of the block. -/
def putContiguous (mq : CShmMQ) (tail : Nat) (data sHead : List UInt8) : Option CShmMQ := do
  let dataLen := data.length
  let mq ← mq.copyIn tail sHead
  let mq ← mq.copyIn (tail + cSafeAreaLen + cHeadSize) data
  let mq ← mq.copyIn (tail + cSafeAreaLen + cHeadSize + dataLen) (le32 cSafeAreaVal)
  return { mq with tail := u32 (mq.tail + (dataLen + cHeadSize + cSafeAreaLen * 2)) }

/-- The trailing mark cut by the end of the block, written byte by byte; `secondLen` bytes of it
go to the start of the block. -/
def putSplitMark (mq : CShmMQ) (secondLen : Nat) : Option CShmMQ :=
  let blocksize := mq.blocksize
  if secondLen = 3 then do
    let mq ← mq.copyIn (blocksize - 1) [0x53]
    let mq ← mq.copyIn 0 [0x50]
    let mq ← mq.copyIn 1 [0x50]
    mq.copyIn 2 [0x58]
  else if secondLen = 2 then do
    let mq ← mq.copyIn (blocksize - 2) [0x53]
    let mq ← mq.copyIn (blocksize - 1) [0x50]
    let mq ← mq.copyIn 0 [0x50]
    mq.copyIn 1 [0x58]
  else if secondLen = 1 then do
    let mq ← mq.copyIn (blocksize - 3) [0x53]
    let mq ← mq.copyIn (blocksize - 2) [0x50]
    let mq ← mq.copyIn (blocksize - 1) [0x50]
    mq.copyIn 0 [0x58]
  else
    some mq

/-- The branch of `enqueue` for a record whose head fits before the end of the block. -/
def putSplitData (mq : CShmMQ) (tail tailLen totalLen : Nat) (data sHead : List UInt8) :
    Option CShmMQ := do
  let dataLen := data.length
  let mq ← mq.copyIn tail sHead
  let firstLen := u32 (tailLen - cSafeAreaLen - cHeadSize)
  let secondLen := u32 (dataLen + cSafeAreaLen - firstLen)
  let mq ←
    if secondLen ≥ cSafeAreaLen then do
      let mq ← mq.copyIn (tail + cSafeAreaLen + cHeadSize) (data.take firstLen)
      let mq ← mq.copyIn 0 ((data.drop firstLen).take (secondLen - cSafeAreaLen))
      mq.copyIn (secondLen - cSafeAreaLen) (le32 cSafeAreaVal)
    else do
      let mq ← mq.copyIn (tail + cSafeAreaLen + cHeadSize)
        (data.take (u32 (firstLen - cSafeAreaLen + secondLen)))
      mq.putSplitMark secondLen
  let offset := i32 totalLen - i32 mq.blocksize
  return { mq with tail := u32 (mq.tail + offset) }

/-- The branch of `enqueue` for a record whose head is cut by the end of the block. -/
def putSplitHead (mq : CShmMQ) (tail tailLen : Nat) (data sHead : List UInt8) :
    Option CShmMQ := do
  let dataLen := data.length
  let mq ← mq.copyIn tail (sHead.take tailLen)
  let secondLen := u32 (cSafeAreaLen + cHeadSize - tailLen)
  let mq ← mq.copyIn 0 ((sHead.drop tailLen).take secondLen)
  let mq ← mq.copyIn secondLen data
  let mq ← mq.copyIn (secondLen + dataLen) (le32 cSafeAreaVal)
  return { mq with tail := u32 (secondLen + dataLen + cSafeAreaLen) }

/-- The free bytes. -/
def freeLen (mq : CShmMQ) (head tail : Nat) : Nat :=
  if head > tail then head - tail else u32 (head + mq.blocksize - tail)

/-- The bytes of a record. -/
def recordLen (dataLen : Nat) : Nat := u32 (dataLen + cHeadSize + 2 * cSafeAreaLen)

/-- `CShmMQ::enqueue` once there is room: write the record and publish the tail. -/
def storeRecord (mq : CShmMQ) (tail : Nat) (data : List UInt8) (flow : UInt32) :
    Option (EnqueueExit × CShmMQ) := do
  let dataLen := data.length
  let tailLen := u32 (mq.blocksize - tail)
  let totalLen := recordLen dataLen
  let sHead := recordHead totalLen flow
  let mq ←
    if tailLen ≥ totalLen then
      mq.putContiguous tail data sHead
    else if tailLen ≥ cHeadSize + cSafeAreaLen ∧
        tailLen < u32 (cHeadSize + 2 * cSafeAreaLen + dataLen) then
      mq.putSplitData tail tailLen totalLen data sHead
    else
      mq.putSplitHead tail tailLen data sHead
  let count := i32 (mq.pstat.msgCount + 1)
  return (.stored count, { mq with pstat := { mq.pstat with msgCount := count } })

/-- `CShmMQ::enqueue` after it has read `*head_` and `*tail_`. -/
def enqueueAt (processExists : Int → Bool) (mq : CShmMQ) (head tail : Nat)
    (data : List UInt8) (flow : UInt32) : Option (EnqueueExit × CShmMQ) :=
  match mq.doCheck processExists head tail with
  | (false, mq) => some (.chkfail, mq)
  | (true, mq) =>
      if mq.freeLen head tail ≤ recordLen data.length then
        some (.mqfull, mq)
      else
        mq.storeRecord tail data flow

/-- `CShmMQ::enqueue`; `data` holds the `data_len` bytes given. -/
def enqueue (processExists : Int → Bool) (mq : CShmMQ) (data : List UInt8) (flow : UInt32) :
    Option (EnqueueExit × CShmMQ) :=
  mq.enqueueAt processExists mq.head mq.tail data flow

/-- The return statements of `dequeue`. -/
inductive DequeueExit where
  /-- The snapshot of the offsets is not valid. -/
  | chkfail
  /-- The snapshot shows no record. -/
  | mqempty
  /-- The leading mark is wrong; the queue is cleared. -/
  | chkfailHead
  /-- The record is longer than the queue content; the queue is cleared. -/
  | overrun
  /-- The record does not fit the caller's buffer; the queue is cleared. -/
  | otfbuff
  /-- The trailing mark is wrong; the queue is cleared. -/
  | chkfailEnd
  | taken
deriving DecidableEq, Repr

/-- Value returned by `dequeue`. -/
def DequeueExit.ret : DequeueExit → Int
  | .chkfail => commuErrChkfail
  | .mqempty => commuErrMqempty
  | .chkfailHead => commuErrChkfail
  | .overrun => commuErrMqempty
  | .otfbuff => commuErrOtfbuff
  | .chkfailEnd => commuErrChkfail
  | .taken => 0

/-- What `dequeue` gives. -/
structure DequeueResult where
  exit : DequeueExit
  buf : ByteRegion
  dataLen : Nat
  flow : Option UInt32
  mq : CShmMQ

/-- The error paths of `dequeue`: check the current offsets, and clear the queue if they are valid
(`do_check` itself clears it otherwise). -/
def checkAndClear (processExists : Int → Bool) (mq : CShmMQ) : CShmMQ :=
  match mq.doCheck processExists mq.head mq.tail with
  | (true, mq) => mq.clear
  | (false, mq) => mq

/-- The head of the record at `head`, and the offset after it. -/
def getHead (mq : CShmMQ) (head : Nat) : Option (List UInt8 × Nat) :=
  if u32 (head + cSafeAreaLen + cHeadSize) > mq.blocksize then do
    let firstSize := u32 (mq.blocksize - head)
    let secondSize := u32 (cSafeAreaLen + cHeadSize - firstSize)
    let first ← mq.block.read head firstSize
    let second ← mq.block.read 0 secondSize
    return (first ++ second, secondSize)
  else do
    let sHead ← mq.block.read head (cSafeAreaLen + cHeadSize)
    return (sHead, u32 (head + (cHeadSize + cSafeAreaLen)))

/-- Copy `dataLen` bytes at `head` into the caller's buffer, and the offset after them. -/
def getData (mq : CShmMQ) (buf : ByteRegion) (head dataLen : Nat) : Option (ByteRegion × Nat) :=
  if u32 (head + dataLen) > mq.blocksize then do
    let firstSize := u32 (mq.blocksize - head)
    let secondSize := u32 (dataLen - firstSize)
    let first ← mq.block.read head firstSize
    let buf ← buf.write 0 first
    let second ← mq.block.read 0 secondSize
    let buf ← buf.write firstSize second
    return (buf, secondSize)
  else do
    let bytes ← mq.block.read head dataLen
    let buf ← buf.write 0 bytes
    return (buf, u32 (head + dataLen))

/-- `CShmMQ::dequeue` once the snapshot shows a record at `head`; `buf.size` is `buf_size`. -/
def takeRecord (processExists : Int → Bool) (mq : CShmMQ) (head usedLen : Nat)
    (buf : ByteRegion) : Option DequeueResult := do
  let (sHead, head) ← mq.getHead head
  let totalLen := readLe32 (sHead.drop cSafeAreaLen)
  let flow := UInt32.ofNat (readLe32 (sHead.drop (cSafeAreaLen + 4)))
  if readLe32 sHead ≠ cSafeAreaVal then
    return ⟨.chkfailHead, buf, 0, some flow, mq.checkAndClear processExists⟩
  else if totalLen > usedLen then
    return ⟨.overrun, buf, 0, some flow, mq.checkAndClear processExists⟩
  else
    let dataLen := u32 (totalLen - cHeadSize - cSafeAreaLen)
    if dataLen > buf.size then
      return ⟨.otfbuff, buf, 0, some flow, mq.checkAndClear processExists⟩
    else
      let (buf, head) ← mq.getData buf head dataLen
      let mq := { mq with head }
      let dataLen := u32 (dataLen - cSafeAreaLen)
      let mark ← buf.read dataLen 4
      if readLe32 mark ≠ cSafeAreaVal then
        return ⟨.chkfailEnd, buf, 0, some flow, mq.checkAndClear processExists⟩
      else
        return ⟨.taken, buf, dataLen, some flow,
          { mq with pstat := { mq.pstat with
              curflow := i32 flow.toNat
              processCount := i32 (mq.pstat.processCount + 1) } }⟩

/-- The bytes in use. -/
def usedLen (mq : CShmMQ) (head tail : Nat) : Nat :=
  if tail > head then tail - head else u32 (tail + mq.blocksize - head)

/-- `CShmMQ::dequeue` on a snapshot that is not empty: lower the count, copy the record out and
publish the head. -/
def takeOut (processExists : Int → Bool) (mq : CShmMQ) (head tail : Nat) (buf : ByteRegion) :
    Option DequeueResult :=
  let mq := { mq with pstat := { mq.pstat with msgCount := i32 (mq.pstat.msgCount - 1) } }
  mq.takeRecord processExists head (mq.usedLen head tail) buf

/-- `CShmMQ::dequeue` after it has read `*head_` and `*tail_`. -/
def dequeueAt (processExists : Int → Bool) (mq : CShmMQ) (head tail : Nat) (buf : ByteRegion) :
    Option DequeueResult :=
  match mq.doCheck processExists head tail with
  | (false, mq) => some ⟨.chkfail, buf, 0, none, mq⟩
  | (true, mq) =>
      if head = tail then
        some ⟨.mqempty, buf, 0, none, mq⟩
      else
        mq.takeOut processExists head tail buf

/-- `dequeue` -/
def dequeue (processExists : Int → Bool) (mq : CShmMQ) (buf : ByteRegion) :
    Option DequeueResult :=
  mq.dequeueAt processExists mq.head mq.tail buf

/-- The lengths of `TMQStat` that `getstat` computes. -/
structure TMQStat where
  usedlen : Nat
  freelen : Nat
  totallen : Nat
deriving DecidableEq, Repr

/-- `getstat` -/
def getstat (mq : CShmMQ) : TMQStat where
  usedlen :=
    if mq.tail ≥ mq.head then mq.tail - mq.head else u32 (mq.tail + mq.blocksize - mq.head)
  freelen := mq.freeLen mq.head mq.tail
  totallen := mq.blocksize

/-- `isEmpty` -/
def isEmpty (mq : CShmMQ) : Bool := mq.pstat.msgCount = 0

end CShmMQ
end Spp
