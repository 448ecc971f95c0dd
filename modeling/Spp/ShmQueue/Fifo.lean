import Spp.ShmQueue.Get

/-!
# Runs of the report queue

A run is a sequence of `sq_put` and `sq_get` calls on a new queue, with the messages its callers
know to be in it, judged from the returned values alone.
-/

namespace Spp
namespace SqHead

open CircularBuffer SegmentRing

/-! ## One call on a clean ring -/

/-- The invariant between two calls: no node is dirty. -/
def Clean (queue : SqHead) (messages : List Message) : Prop :=
  ∃ head, queue.Holds head (fun _ => False) messages

variable {eleSize eleCount head : Nat} {datalen : Int} {queue : SqHead} {dirty : Nat → Prop}
  {messages : List Message} {data : Option (List UInt8)}

theorem clean_zeroed (size_lt : eleSize < 2147483648) (count_lt : eleCount < 1073741824) :
    (zeroed eleSize eleCount).Clean [] := by
  refine ⟨0, ⟨count_lt, size_lt, rfl⟩, rfl, Nat.succ_pos _, rfl, rfl, Nat.succ_pos _, trivial, ?_⟩
  intro offset _ _ _
  rfl

/-- The message of a call. -/
def given (data : List UInt8) (datalen : Int) (now : Timeval) : Message :=
  ⟨data.take datalen.toNat, now⟩

theorem length_given {data : List UInt8} (now : Timeval) (datalen_nonneg : 0 ≤ datalen)
    (datalen_le : datalen ≤ data.length) : datalen = (given data datalen now).data.length := by
  simp only [given, List.length_take]
  omega

/-- `sq_put` of arguments in range: the message given is stored when there is room for it. -/
theorem Holds.sqPut_given (holds : queue.Holds head dirty messages) {bytes : List UInt8}
    (now : Timeval) (good : ¬ (datalen ≤ 0 ∨ datalen > maxSqDataLength))
    (datalen_le : datalen ≤ bytes.length) :
    (given bytes datalen now).Valid ∧ datalen = (given bytes datalen now).data.length ∧
      queue.sqPut (some bytes) datalen now =
        if queue.used head messages + extent queue.ring (queue.tail head messages)
            (queue.needed (given bytes datalen now)) < queue.ring then
          some (.done [], queue.appended (queue.tail head messages) (given bytes datalen now))
        else
          some (.notEnough, queue) := by
  have length_eq := length_given now (by omega) datalen_le
  have valid : (given bytes datalen now).Valid := by
    unfold maxSqDataLength at good
    constructor <;> omega
  have data_eq : bytes.take (given bytes datalen now).data.length =
      (given bytes datalen now).data := by
    rw [← Int.toNat_natCast (given bytes datalen now).data.length, ← length_eq]
    rfl
  have call := sqPut_eq holds length_eq data_eq valid
  exact ⟨valid, length_eq, call⟩

/-- `sq_put` of any arguments: it refuses and changes nothing, or it stores the message given. -/
theorem Holds.sqPut (holds : queue.Holds head dirty messages) (now : Timeval)
    (datalen_le : ∀ bytes, data = some bytes → datalen ≤ bytes.length) :
    (∃ exit, queue.sqPut data datalen now = some (exit, queue) ∧
        (exit = .badArgument ∨ exit = .notEnough)) ∨
      ∃ bytes, data = some bytes ∧ (given bytes datalen now).Valid ∧
        datalen = (given bytes datalen now).data.length ∧
        queue.used head messages + extent queue.ring (queue.tail head messages)
          (queue.needed (given bytes datalen now)) < queue.ring ∧
        queue.sqPut data datalen now = some (.done [],
          queue.appended (queue.tail head messages) (given bytes datalen now)) := by
  cases data with
  | none => exact .inl ⟨.badArgument, rfl, .inl rfl⟩
  | some bytes =>
      by_cases bad : datalen ≤ 0 ∨ datalen > maxSqDataLength
      · exact .inl ⟨.badArgument, if_pos bad, .inl rfl⟩
      · obtain ⟨valid, length_eq, call⟩ := holds.sqPut_given now bad (datalen_le bytes rfl)
        by_cases fits : queue.used head messages +
            extent queue.ring (queue.tail head messages)
              (queue.needed (given bytes datalen now)) < queue.ring
        · rw [if_pos fits] at call
          exact .inr ⟨bytes, rfl, valid, length_eq, fits, call⟩
        · rw [if_neg fits] at call
          exact .inl ⟨.notEnough, call, .inr rfl⟩

/-- `sq_put` on a clean ring: it refuses and changes nothing, or it appends. -/
theorem Clean.sqPut (clean : queue.Clean messages) (now : Timeval)
    (datalen_le : ∀ bytes, data = some bytes → datalen ≤ bytes.length) :
    (∃ exit, queue.sqPut data datalen now = some (exit, queue) ∧
        (exit = .badArgument ∨ exit = .notEnough)) ∨
      ∃ bytes next, data = some bytes ∧ queue.sqPut data datalen now = some (.done [], next) ∧
        next.Clean (messages ++ [given bytes datalen now]) := by
  obtain ⟨head, holds⟩ := clean
  obtain refused | ⟨bytes, data_eq, valid, _, fits, call⟩ := holds.sqPut now datalen_le
  · exact .inl refused
  · exact .inr ⟨bytes, _, data_eq, call, head, holds.append fits valid (fun _ _ => not_false)⟩

/-- `sq_get` on a clean ring, into a buffer that holds every message: it reports an empty queue or
takes out the oldest message. -/
theorem Clean.sqGet (clean : queue.Clean messages) {buf : ByteRegion} {bufSz : Int}
    (roomy : maxSqDataLength ≤ bufSz) (bufSz_le : bufSz ≤ buf.size) :
    (messages = [] ∧
        queue.sqGet (some buf) bufSz = some ⟨.empty, some buf, none, queue⟩) ∨
      ∃ message rest next, messages = message :: rest ∧ message.Valid ∧
        queue.sqGet (some buf) bufSz =
          some ⟨.taken message.data.length,
            some { buf with byte := splice buf.byte 0 message.data },
            some message.time.bytes, next⟩ ∧ next.Clean rest := by
  obtain ⟨head, holds⟩ := clean
  have size_ok : ¬ bufSz < 1 := by
    unfold maxSqDataLength at roomy
    omega
  cases messages with
  | nil => exact .inl ⟨rfl, holds.sqGet_nil size_ok⟩
  | cons message rest =>
      right
      have valid := holds.stored.1
      have short : (message.data.length : Int) ≤ bufSz := by
        obtain ⟨_, length_le⟩ := valid
        unfold maxSqDataLength at roomy
        omega
      obtain ⟨next, taken, _, emptied⟩ := holds.sqGet_taken size_ok short bufSz_le
      exact ⟨message, rest, next, rfl, valid, taken, _, emptied.mono fun _ is_dirty => is_dirty.1⟩

/-! ## Runs -/

/-- A call of the one process that uses the queue. -/
inductive Call where
  /-- `sq_put` of `datalen` bytes at `data`, at the time `now`. -/
  | put (data : Option (List UInt8)) (datalen : Int) (now : Timeval)
  /-- `sq_get` into a buffer said to have `bufSz` bytes. -/
  | get (buf : ByteRegion) (bufSz : Int)

/-- A call whose pointers are good for the lengths given, and whose buffer holds every message. -/
def Call.Legal : Call → Prop
  | .put data datalen _ => ∀ bytes, data = some bytes → datalen ≤ bytes.length
  | .get buf bufSz => maxSqDataLength ≤ bufSz ∧ bufSz ≤ buf.size

/-- A queue and the messages that its callers know to be in it. -/
structure Tracked where
  queue : SqHead
  /-- Messages put and not yet got, oldest first. -/
  pending : List Message

/-- One call, with the messages known to be in the queue. -/
inductive CallStep : Call → Tracked → Tracked → Prop where
  | put {queue next : SqHead} {pending : List Message} {data : Option (List UInt8)}
      {datalen : Int} {now : Timeval} {exit : PutExit}
      (returns : queue.sqPut data datalen now = some (exit, next)) :
      CallStep (.put data datalen now) ⟨queue, pending⟩
        ⟨next, if exit.ret = 0 then pending ++ [given (data.getD []) datalen now] else pending⟩
  | get {queue : SqHead} {pending : List Message} {buf : ByteRegion} {bufSz : Int}
      {result : GetResult} (returns : queue.sqGet (some buf) bufSz = some result) :
      CallStep (.get buf bufSz) ⟨queue, pending⟩
        ⟨result.queue, if 0 < result.exit.ret then pending.tail else pending⟩

/-- Runs of legal calls from an empty queue. -/
def Reaches (eleSize eleCount : Nat) : Tracked → Prop :=
  Relation.ReflTransGen (fun before after => ∃ call, call.Legal ∧ CallStep call before after)
    ⟨zeroed eleSize eleCount, []⟩

theorem Clean.step {call : Call} {before after : Tracked}
    (clean : before.queue.Clean before.pending) (legal : call.Legal)
    (step : CallStep call before after) : after.queue.Clean after.pending := by
  cases step with
  | @put queue next pending data datalen now exit returns =>
      obtain ⟨_, refused, exit_eq⟩ | ⟨bytes, _, rfl, stored, appended⟩ := clean.sqPut now legal
      · rw [refused] at returns
        cases returns
        obtain rfl | rfl := exit_eq <;> exact clean
      · rw [stored] at returns
        cases returns
        exact appended
  | @get queue pending buf bufSz result returns =>
      obtain ⟨_, empty⟩ | ⟨message, rest, next, pending_eq, valid, taken, later⟩ :=
        clean.sqGet legal.1 legal.2
      · rw [empty] at returns
        cases returns
        exact clean
      · rw [taken] at returns
        cases returns
        have positive : 0 < (GetExit.taken message.data.length).ret := Int.natCast_pos.mpr valid.1
        simp only at pending_eq
        rw [if_pos positive, pending_eq]
        exact later

theorem Reaches.clean (size_lt : eleSize < 2147483648) (count_lt : eleCount < 1073741824)
    {state : Tracked} (reach : Reaches eleSize eleCount state) :
    state.queue.Clean state.pending := by
  induction reach with
  | refl => exact clean_zeroed size_lt count_lt
  | tail _ step induction =>
      obtain ⟨call, legal, step⟩ := step
      exact induction.step legal step

/-- The queue is a FIFO of messages: in every state of a run, a next `sq_put` stores its message or
returns -1 or -2 and changes nothing, and a next `sq_get` gives back the oldest message still in
the queue, or 0 exactly when there is none. -/
theorem reaches_sq_fifo (eleSize eleCount : Nat) (size_lt : eleSize < 2147483648)
    (count_lt : eleCount < 1073741824) {state : Tracked} (reach : Reaches eleSize eleCount state) :
    (∀ (data : Option (List UInt8)) (datalen : Int) (now : Timeval),
      (∀ bytes, data = some bytes → datalen ≤ bytes.length) →
      ∃ exit next, state.queue.sqPut data datalen now = some (exit, next) ∧
        (exit.ret = 0 ∨ (exit.ret = -1 ∨ exit.ret = -2) ∧ next = state.queue)) ∧
    ∀ (buf : ByteRegion) (bufSz : Int), maxSqDataLength ≤ bufSz → bufSz ≤ buf.size →
      ∃ result, state.queue.sqGet (some buf) bufSz = some result ∧ 0 ≤ result.exit.ret ∧
        (0 < result.exit.ret → ∃ message rest filled, state.pending = message :: rest ∧
          result.exit.ret = message.data.length ∧ result.buf = some filled ∧
          slice filled.byte 0 message.data.length = message.data ∧
          result.time = some message.time.bytes) ∧
        (result.exit.ret = 0 ↔ state.pending = []) := by
  have clean := reach.clean size_lt count_lt
  constructor
  · intro data datalen now datalen_le
    obtain ⟨exit, refused, exit_eq⟩ | ⟨_, next, _, stored, _⟩ := clean.sqPut now datalen_le
    · refine ⟨exit, _, refused, .inr ⟨?_, rfl⟩⟩
      obtain rfl | rfl := exit_eq
      · exact .inl rfl
      · exact .inr rfl
    · exact ⟨_, next, stored, .inl rfl⟩
  · intro buf bufSz roomy bufSz_le
    obtain ⟨pending_eq, empty⟩ | ⟨message, rest, next, pending_eq, valid, taken, _⟩ :=
      clean.sqGet roomy bufSz_le
    · refine ⟨_, empty, le_refl 0, fun positive => absurd positive (lt_irrefl 0), ?_⟩
      simp [pending_eq, GetExit.ret]
    · have length_pos := valid.1
      refine ⟨_, taken, Int.natCast_nonneg _, fun _ => ?_, ?_⟩
      · exact ⟨message, rest, _, pending_eq, rfl, rfl, slice_splice buf.byte 0 message.data, rfl⟩
      · simp only [GetExit.ret, pending_eq, reduceCtorEq, iff_false]
        omega

/-- A message of three bytes, used to instantiate the results on runs. -/
def sampleMessage : Message := ⟨[1, 2, 3], ⟨List.replicate 16 0, rfl⟩⟩

/-- A queue of two elements in which `sampleMessage` was put. -/
def sampleQueue : SqHead := (zeroed 8 2).appended 0 sampleMessage

theorem sqPut_sampleMessage :
    (zeroed 8 2).sqPut (some [1, 2, 3]) 3 sampleMessage.time = some (.done [], sampleQueue) := by
  obtain ⟨head, holds⟩ := clean_zeroed (show 8 < 2147483648 by decide)
    (show 2 < 1073741824 by decide)
  have at_zero : head = 0 := Int.ofNat_inj.mp holds.head_eq.symm
  subst at_zero
  exact @sqPut_eq _ sampleMessage [1, 2, 3] 3 0 _ [] holds rfl rfl ⟨by decide, by decide⟩

theorem reaches_sampleQueue : Reaches 8 2 ⟨sampleQueue, [sampleMessage]⟩ := by
  refine Relation.ReflTransGen.single
    ⟨.put (some [1, 2, 3]) 3 sampleMessage.time, ?_, CallStep.put sqPut_sampleMessage⟩
  rintro bytes ⟨⟩
  decide

theorem reaches_sq_fifo_sample :
    ∃ result, sampleQueue.sqGet (some ⟨65536, fun _ => 0⟩) 65536 = some result ∧
      (result.exit.ret = 0 ↔ [sampleMessage] = []) := by
  obtain ⟨_, get⟩ := reaches_sq_fifo 8 2 (by decide) (by decide) reaches_sampleQueue
  obtain ⟨result, returned, _, _, empty_iff⟩ :=
    get ⟨65536, fun _ => 0⟩ 65536 (by decide) (by decide)
  exact ⟨result, returned, empty_iff⟩

/-- `sq_get_used_blocks` counts at least the nodes of the messages in the queue, at most all nodes,
and none exactly when the queue is empty. -/
theorem reaches_sqGetUsedBlocks (size_lt : eleSize < 2147483648) (count_lt : eleCount < 1073741824)
    {state : Tracked} (reach : Reaches eleSize eleCount state) :
    ∃ used : Nat, state.queue.sqGetUsedBlocks = some used ∧
      (state.pending.map state.queue.needed).sum ≤ used ∧ used ≤ state.queue.eleCount ∧
      (used = 0 ↔ state.pending = []) := by
  obtain ⟨head, holds⟩ := reach.clean size_lt count_lt
  have sum_le := SegmentRing.sum_le_span state.queue.ring head (state.queue.blocks state.pending)
  refine ⟨state.queue.used head state.pending, ?_, sum_le, Nat.le_of_lt_succ holds.room, ?_⟩
  · rw [sqGetUsedBlocks, holds.head_eq]
    exact sqUsedNodes2_eq holds.sound holds.head_lt holds.room holds.tail_lt holds.tail_eq_advance
      holds.tail_eq
  · constructor
    · intro none_used
      have sum_zero := Nat.le_zero.1 (sum_le.trans_eq none_used)
      refine List.eq_nil_iff_forall_not_mem.2 fun message member => ?_
      have listed : state.queue.needed message ∈ state.queue.blocks state.pending :=
        List.mem_map_of_mem member
      exact (holds.stored.proper _ listed).1.ne'
        (List.sum_eq_zero_iff_forall_eq_nat.1 sum_zero _ listed)
    · intro none_left
      rw [none_left]
      rfl

theorem reaches_sqGetUsedBlocks_sample :
    ∃ used : Nat, sampleQueue.sqGetUsedBlocks = some used ∧
      ([sampleMessage].map sampleQueue.needed).sum ≤ used ∧ used ≤ sampleQueue.eleCount ∧
      (used = 0 ↔ [sampleMessage] = []) := by
  have sample := reaches_sqGetUsedBlocks (by decide) (by decide) reaches_sampleQueue
  exact sample

/-- With the largest `ele_count`, already the first `sq_put` overflows in `ele_count + 1`. -/
theorem sqPut_zeroed_overflow :
    (zeroed 8 2147483647).sqPut (some [1, 2, 3]) 3 sampleMessage.time = none := rfl

end SqHead
end Spp
