import Spp.Lib.ByteRegion
import Spp.Lib.MachineInt

/-!
# The report queue `sq_put` / `sq_get`

The queue of `comm/report/shm_queue.cpp`: a ring of `ele_count + 1` nodes of equal size.  A message
takes a run of consecutive nodes; its header and data start in the first of them.  A message that
would run over the end of the ring is put at index 0 and the nodes at the end are skipped.  The
reader looks for the next start token from `head_pos` on.

Positions and counts are `int`; an `int` operation that overflows, and an access outside the nodes
or outside the caller's buffers, are failures (`none`).  The steps of `sq_get` that other processes
can come between (scan, compare-and-swap, copy, clearing of the tokens) are functions of their own.
-/

namespace Spp

/-- `START_TOKEN` -/
def startToken : Nat := 0x0000db03

/-- `MAX_SQ_DATA_LENGTH` -/
def maxSqDataLength : Int := 65536

/-- `MAX_READER_PROC_NUM` -/
def maxReaderProcNum : Nat := 64

/-- `sizeof(struct sq_node_head_t)`: the token, the length and the time. -/
def sqNodeHeadSize : Nat := 24

/-- The 16 bytes of a `struct timeval`. -/
structure Timeval where
  bytes : List UInt8
  length_eq : bytes.length = 16

/-- The part for signals. -/
structure SqSignal where
  dataSignum : Int
  sigNodeNum : Int
  sigProcessNum : Int
  pidnum : Int
  pidset : Nat → Int
  sigmask : Nat → Bool

/-- `sq_head_t` -/
structure SqHead where
  eleSize : Nat
  eleCount : Nat
  headPos : Int
  tailPos : Int
  signal : SqSignal
  nodes : ByteRegion

namespace SqHead

/-- `SQ_NODE_SIZE` -/
def sqNodeSize (queue : SqHead) : Nat := sqNodeHeadSize + queue.eleSize

/-- The queue of a new segment: everything but the two parameters is zero. -/
def zeroed (eleSize eleCount : Nat) : SqHead where
  eleSize
  eleCount
  headPos := 0
  tailPos := 0
  signal := ⟨0, 0, 0, 0, fun _ => 0, fun _ => false⟩
  nodes := ⟨(eleCount + 1) * (sqNodeHeadSize + eleSize), fun _ => 0⟩

/-- `ele_count + 1` -/
def ringSize (queue : SqHead) : Option Int := int32 (queue.eleCount + 1)

/-- `SQ_ADD_POS` (and `SQ_ADD_TAIL`, from `tail_pos`) -/
def sqAddPos (queue : SqHead) (pos val : Int) : Option Int := do
  let sum ← int32 (pos + val)
  let size ← queue.ringSize
  return sum.tmod size

/-- `SQ_EMPTY_NODES2` (and `SQ_EMPTY_NODES`, from `head_pos`) -/
def sqEmptyNodes2 (queue : SqHead) (head : Int) : Option Int := do
  let sum ← int32 (head + queue.eleCount)
  let difference ← int32 (sum - queue.tailPos)
  let size ← queue.ringSize
  return difference.tmod size

/-- `SQ_USED_NODES2` (and `SQ_USED_NODES`, from `head_pos`) -/
def sqUsedNodes2 (queue : SqHead) (head : Int) : Option Int := do
  let emptyNodes ← queue.sqEmptyNodes2 head
  int32 (queue.eleCount - emptyNodes)

/-- `SQ_NUM_NEEDED_NODES`, computed as a `size_t` and assigned to an `int`. -/
def sqNumNeededNodes (queue : SqHead) (datalen : Int) : Int :=
  i32 (u64 (datalen + sqNodeHeadSize + queue.sqNodeSize - 1) / queue.sqNodeSize : Nat)

/-- `SQ_GET`: offset of a node; a negative index lies before the nodes. -/
def sqGetNode (queue : SqHead) (idx : Int) : Option Nat :=
  if 0 ≤ idx then some (idx.toNat * queue.sqNodeSize) else none

/-- Bytes are written into the nodes. -/
def copyIn (queue : SqHead) (offset : Nat) (bytes : List UInt8) : Option SqHead :=
  (queue.nodes.write offset bytes).map fun nodes => { queue with nodes }

/-! ## Writing -/

/-- `sq_sigoff` -/
def sqSigoff (signal : SqSignal) (sigindex : Nat) : SqSignal :=
  if sigindex < u32 signal.pidnum then
    { signal with sigmask := Function.update signal.sigmask sigindex false }
  else
    signal

/-- The signalling loop of `sq_put`, with the processes signalled; `rounds` bounds the processes
that remain to be looked at. -/
def signalReaders : (rounds i nr : Nat) → SqSignal → Option (SqSignal × List Int)
  | 0, _, _, signal => some (signal, [])
  | rounds + 1, i, nr, signal =>
      if (i : Int) < signal.pidnum ∧ (nr : Int) < signal.sigProcessNum then
        if i < maxReaderProcNum then
          if signal.pidset i ≠ 0 ∧ signal.sigmask i = true then
            (signalReaders rounds (i + 1) (nr + 1) (sqSigoff signal i)).map fun (after, pids) =>
              (after, signal.pidset i :: pids)
          else
            signalReaders rounds (i + 1) nr signal
        else
          none
      else
        some (signal, [])

/-- The end of `sq_put`: signal the readers that wait on the queue. -/
def signalWaiting (queue : SqHead) : Option (SqHead × List Int) :=
  if queue.signal.dataSignum ≠ 0 then do
    let usedNodes ← queue.sqUsedNodes2 queue.headPos
    if usedNodes ≥ queue.signal.sigNodeNum then
      let (signal, pids) ← signalReaders queue.signal.pidnum.toNat 0 0 queue.signal
      return ({ queue with signal }, pids)
    else
      return (queue, [])
  else
    some (queue, [])

/-- The return statements of `sq_put`. -/
inductive PutExit where
  | badArgument
  | notEnough
  /-- The message is in the queue; the processes listed were signalled. -/
  | done (signalled : List Int)
deriving DecidableEq, Repr

/-- Value returned by `sq_put`. -/
def PutExit.ret : PutExit → Int
  | .badArgument => -1
  | .notEnough => -2
  | .done _ => 0

/-- `sq_put` once its node is known: write the header and the data at `idx`, publish the tail and
signal. -/
def putNode (queue : SqHead) (idx newTail : Int) (data : List UInt8) (datalen : Int)
    (now : Timeval) : Option (PutExit × SqHead) :=
  if data.length < datalen.toNat then
    none
  else do
    let node ← queue.sqGetNode idx
    let queue ← queue.copyIn node (le32 startToken)
    let queue ← queue.copyIn (node + 4) (le32 (u32 datalen))
    let queue ← queue.copyIn (node + 8) now.bytes
    let queue ← queue.copyIn (node + sqNodeHeadSize) (data.take datalen.toNat)
    let (queue, pids) ← signalWaiting { queue with tailPos := newTail }
    return (.done pids, queue)

/-- `sq_put` of `datalen` bytes at `data` (`none` is a null pointer) at the time `now`. -/
def sqPut (queue : SqHead) (data : Option (List UInt8)) (datalen : Int) (now : Timeval) :
    Option (PutExit × SqHead) :=
  match data with
  | none => some (.badArgument, queue)
  | some data =>
      if datalen ≤ 0 ∨ datalen > maxSqDataLength then
        some (.badArgument, queue)
      else do
        let nrNodes := queue.sqNumNeededNodes datalen
        let emptyNodes ← queue.sqEmptyNodes2 queue.headPos
        if emptyNodes < nrNodes then
          return (.notEnough, queue)
        else
          let newTail ← queue.sqAddPos queue.tailPos nrNodes
          if newTail < queue.tailPos then
            let room ← int32 (queue.headPos - 1)
            if room < nrNodes then
              return (.notEnough, queue)
            else
              queue.putNode 0 nrNodes data datalen now
          else
            queue.putNode queue.tailPos newTail data datalen now

/-! ## Reading -/

/-- How the search for a message ends. -/
inductive ScanExit where
  /-- There is nothing between `head_pos` and `tail_pos`. -/
  | empty
  /-- There are nodes, but none of them starts a message. -/
  | skipped (newHead : Int)
  /-- The node `head` starts a message of `datalen` bytes. -/
  | found (head newHead datalen : Int)
deriving DecidableEq, Repr

/-- The scan of `sq_get` from `head`, for at most `rounds` rounds of its loop. -/
def sqScan (queue : SqHead) (oldHead : Int) : (rounds : Nat) → (head : Int) → Option ScanExit
  | 0, _ => none
  | rounds + 1, head =>
      if queue.tailPos = head then
        some (if head = oldHead then .empty else .skipped head)
      else do
        let node ← queue.sqGetNode head
        let token ← queue.nodes.read node 4
        if readLe32 token ≠ startToken then
          let next ← queue.sqAddPos head 1
          sqScan queue oldHead rounds next
        else
          let length ← queue.nodes.read (node + 4) 4
          let datalen := i32 (readLe32 length)
          let nrNodes := queue.sqNumNeededNodes datalen
          let usedNodes ← queue.sqUsedNodes2 head
          if usedNodes < nrNodes then
            let next ← queue.sqAddPos head 1
            sqScan queue oldHead rounds next
          else
            let newHead ← queue.sqAddPos head nrNodes
            return .found head newHead datalen

/-- The scan of `sq_get`; a scan that visits more nodes than there are would not end. -/
def scan (queue : SqHead) : Option ScanExit :=
  queue.sqScan queue.headPos (queue.eleCount + 1) queue.headPos

/-- `CAS32` on `head_pos`; `none` when it fails. -/
def casHeadPos (queue : SqHead) (oldHead newHead : Int) : Option SqHead :=
  if queue.headPos = oldHead then some { queue with headPos := newHead } else none

/-- `enqueue_time` of a node. -/
def enqueueTime (queue : SqHead) (head : Int) : Option (List UInt8) := do
  let node ← queue.sqGetNode head
  queue.nodes.read (node + 8) 16

/-- Copy the data of the message at `head` into the caller's buffer. -/
def copyOut (queue : SqHead) (head datalen : Int) (buf : ByteRegion) : Option ByteRegion :=
  if datalen < 0 then
    none
  else do
    let node ← queue.sqGetNode head
    let bytes ← queue.nodes.read (node + sqNodeHeadSize) datalen.toNat
    buf.write 0 bytes

/-- The loop of `sq_get` that resets the tokens from `oldHead` to `newHead`. -/
def sqClear (newHead : Int) : (rounds : Nat) → (oldHead : Int) → SqHead → Option SqHead
  | 0, oldHead, queue => if oldHead = newHead then some queue else none
  | rounds + 1, oldHead, queue =>
      if oldHead = newHead then
        some queue
      else do
        let node ← queue.sqGetNode oldHead
        let queue ← queue.copyIn node (le32 0)
        let next ← queue.sqAddPos oldHead 1
        sqClear newHead rounds next queue

/-- Reset the tokens from `oldHead` to `newHead`, at most once around the ring. -/
def clearTokens (queue : SqHead) (oldHead newHead : Int) : Option SqHead :=
  sqClear newHead (queue.eleCount + 1) oldHead queue

/-- The return statements of `sq_get`. -/
inductive GetExit where
  | badArgument
  /-- There is no data in the queue. -/
  | empty
  | exceeds
  | taken (datalen : Int)
deriving DecidableEq, Repr

/-- Value returned by `sq_get`. -/
def GetExit.ret : GetExit → Int
  | .badArgument => -1
  | .empty => 0
  | .exceeds => -2
  | .taken datalen => datalen

/-- What `sq_get` gives. -/
structure GetResult where
  exit : GetExit
  buf : Option ByteRegion
  time : Option (List UInt8)
  queue : SqHead

/-- `sq_get` run alone, so that its compare-and-swap succeeds, into a buffer `buf` (`none` is a null
pointer) said to have `bufSz` bytes. -/
def sqGet (queue : SqHead) (buf : Option ByteRegion) (bufSz : Int) : Option GetResult :=
  match buf with
  | none => some ⟨.badArgument, none, none, queue⟩
  | some buf =>
      if bufSz < 1 then
        some ⟨.badArgument, some buf, none, queue⟩
      else do
        let oldHead := queue.headPos
        match ← queue.scan with
        | .empty => return ⟨.empty, some buf, none, queue⟩
        | .skipped newHead =>
            let queue ← queue.casHeadPos oldHead newHead
            let queue ← queue.clearTokens oldHead newHead
            return ⟨.empty, some buf, none, queue⟩
        | .found head newHead datalen =>
            let queue ← queue.casHeadPos oldHead newHead
            let time ← queue.enqueueTime head
            if datalen > bufSz then
              return ⟨.exceeds, some buf, some time, queue⟩
            else
              let buf ← queue.copyOut head datalen buf
              let queue ← queue.clearTokens oldHead newHead
              return ⟨.taken datalen, some buf, some time, queue⟩

/-- `sq_get_used_blocks` -/
def sqGetUsedBlocks (queue : SqHead) : Option Int := queue.sqUsedNodes2 queue.headPos

end SqHead
end Spp
