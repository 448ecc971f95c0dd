import Spp.ShmMQ.Invariant

/-!
# Runs of the message queue

A run is a sequence of calls on a new segment, with the messages its callers know to be in the
queue, judged from the returned values alone.
-/

namespace Spp
namespace CShmMQ

open CircularBuffer

/-- A call of a process that uses the queue alone. -/
inductive Call where
  | enqueue (message : Message)
  | dequeue (buf : ByteRegion)
  | clear

/-- A queue and the messages that its callers know to be in it. -/
structure Tracked where
  mq : CShmMQ
  /-- Messages stored and neither taken out nor cleared, oldest first. -/
  pending : List Message

/-- The messages known to be in the queue after `enqueue` returned `ret`. -/
def pendingAfterEnqueue (pending : List Message) (message : Message) (ret : Int) :
    List Message :=
  if 0 ≤ ret then pending ++ [message] else pending

variable {shmsize blocksize : Nat} {state : Tracked} {processExists : Int → Bool} {call : Call}
  {legal : Call → Prop}

theorem pendingAfterEnqueue_stored (pending : List Message) (message : Message) (count : Nat) :
    pendingAfterEnqueue pending message (EnqueueExit.stored (count + 1)).ret =
      pending ++ [message] :=
  if_pos (show (0 : Int) ≤ count + 1 by omega)

/-- The messages known to be in the queue after `dequeue` returned `ret`. -/
def pendingAfterDequeue (pending : List Message) (ret : Int) : List Message :=
  if ret = 0 then pending.tail else if ret = commuErrOtfbuff then [] else pending

/-- One call, with the messages known to be in the queue. -/
inductive CallStep (processExists : Int → Bool) : Call → Tracked → Tracked → Prop where
  | enqueue {mq next : CShmMQ} {pending : List Message} {message : Message} {exit : EnqueueExit}
      (returns : mq.enqueue processExists message.data message.flow = some (exit, next)) :
      CallStep processExists (.enqueue message) ⟨mq, pending⟩
        ⟨next, pendingAfterEnqueue pending message exit.ret⟩
  | dequeue {mq : CShmMQ} {pending : List Message} {buf : ByteRegion} {result : DequeueResult}
      (returns : mq.dequeue processExists buf = some result) :
      CallStep processExists (.dequeue buf) ⟨mq, pending⟩
        ⟨result.mq, pendingAfterDequeue pending result.exit.ret⟩
  | clear {mq : CShmMQ} {pending : List Message} :
      CallStep processExists .clear ⟨mq, pending⟩ ⟨mq.clear, []⟩

/-- Runs of the calls that satisfy `legal`, from a new segment of `shmsize` bytes. -/
def Reaches (processExists : Int → Bool) (legal : Call → Prop) (shmsize : Nat)
    (bytes : Nat → UInt8) : Tracked → Prop :=
  Relation.ReflTransGen (fun before after => ∃ call, legal call ∧
    CallStep processExists call before after) ⟨init shmsize bytes, []⟩

/-- A call whose `data_len + 16` does not wrap. -/
def Call.Unwrapped : Call → Prop
  | .enqueue message => message.data.length + 16 < 4294967296
  | .dequeue _ => True
  | .clear => True

/-- A call of a FIFO run over a block of `blocksize` bytes: no `clear`, and buffers as large as the
block. -/
def Call.Roomy (blocksize : Nat) : Call → Prop
  | .enqueue message => message.data.length + 16 < 4294967296
  | .dequeue buf => blocksize ≤ buf.size
  | .clear => False

/-- The block holds the records of the pending messages, and counts them. -/
structure Tracked.Valid (blocksize : Nat) (state : Tracked) : Prop where
  size_eq : state.mq.blocksize = blocksize
  holds : Holds state.mq state.pending
  count : state.mq.pstat.msgCount = state.pending.length

theorem valid_init (bytes : Nat → UInt8) (size_ge : 16 ≤ shmsize - 12)
    (size_lt : shmsize < 2147483648) : Tracked.Valid (shmsize - 12) ⟨init shmsize bytes, []⟩ := by
  refine ⟨rfl, ⟨size_ge, ?_, Nat.zero_le _, ?_, ?_, rfl⟩, rfl⟩
  · show shmsize - 12 < 2147483648
    omega
  · show 0 < shmsize - 12
    omega
  · exact (advance_zero (Nat.zero_le _)).symm

theorem Tracked.Valid.length_lt (valid : state.Valid blocksize) :
    state.pending.length < 134217728 := by
  have records := sixteen_mul_length_le state.pending
  have room := valid.holds.room
  have size_lt := valid.holds.size_lt
  omega

theorem i32_succ {count : Nat} (small : count < 134217728) :
    i32 ((count : Int) + 1) = count + 1 := by
  unfold i32
  omega

theorem Holds.clear {mq : CShmMQ} {queue : List Message} (holds : Holds mq queue) :
    Holds mq.clear [] := by
  refine ⟨holds.size_ge, holds.size_lt, Nat.zero_le _, ?_, ?_, rfl⟩
  · show 0 < mq.blocksize
    have := holds.size_ge
    omega
  · exact (advance_zero (Nat.zero_le _)).symm

/-- `enqueue` from a valid state: it is full and changes nothing, or it appends. -/
theorem Tracked.Valid.enqueue (processExists : Int → Bool) (valid : state.Valid blocksize)
    {message : Message} (unwrapped : message.data.length + 16 < 4294967296) :
    (state.mq.enqueue processExists message.data message.flow = some (.mqfull, state.mq)) ∨
      ∃ next, state.mq.enqueue processExists message.data message.flow =
          some (.stored (state.pending.length + 1), next) ∧
        Tracked.Valid blocksize ⟨next, state.pending ++ [message]⟩ := by
  have holds := valid.holds
  have call := enqueue_eq processExists holds.size_lt holds.head_le holds.room holds.tail_eq
    (show message.totalLen < 4294967296 from unwrapped)
  by_cases full : state.mq.blocksize - (encodeAll state.pending).length ≤ message.totalLen
  · left
    rw [call, if_pos full]
  · right
    have count_eq := i32_succ valid.length_lt
    refine ⟨(state.mq.append message).counted, ?_, valid.size_eq, ?_, ?_⟩
    · rw [call, if_neg full, valid.count, count_eq]
    · exact (holds.append (by omega)).counted
    · show i32 (state.mq.pstat.msgCount + 1) = _
      rw [valid.count, count_eq]
      simp

/-- `dequeue` from a valid state: it reports an empty queue, clears the queue because the buffer is
too small, or takes out the oldest message. -/
theorem Tracked.Valid.dequeue (processExists : Int → Bool) (valid : state.Valid blocksize)
    (buf : ByteRegion) :
    (state.pending = [] ∧
        state.mq.dequeue processExists buf = some ⟨.mqempty, buf, 0, none, state.mq⟩) ∨
      ∃ message rest, state.pending = message :: rest ∧
        ((message.data.length + 4 > buf.size ∧
            state.mq.dequeue processExists buf =
              some ⟨.otfbuff, buf, 0, some message.flow, state.mq.clear⟩ ∧
            Tracked.Valid blocksize ⟨state.mq.clear, []⟩) ∨
          (message.data.length + 4 ≤ buf.size ∧
            state.mq.dequeue processExists buf =
              some ⟨.taken,
                { buf with byte := splice buf.byte 0 (message.data ++ le32 cSafeAreaVal) },
                message.data.length, some message.flow, state.mq.removeFirst message⟩ ∧
            Tracked.Valid blocksize ⟨state.mq.removeFirst message, rest⟩)) := by
  have holds := valid.holds
  cases pending_eq : state.pending with
  | nil =>
      left
      rw [pending_eq] at holds
      exact ⟨rfl, dequeue_empty processExists buf holds⟩
  | cons message rest =>
      right
      have length_lt := valid.length_lt
      rw [pending_eq] at length_lt holds
      have call := (dequeue_nonempty processExists holds buf).trans
        (takeOut_eq processExists holds (by simp) holds.room buf)
      refine ⟨message, rest, rfl, ?_⟩
      by_cases small : message.data.length + 4 > buf.size
      · left
        refine ⟨small, ?_, valid.size_eq, holds.clear, rfl⟩
        rw [call, if_pos small]
      · right
        refine ⟨by omega, ?_, valid.size_eq, holds.removeFirst, ?_⟩
        · rw [call, if_neg small]
        · show i32 (state.mq.pstat.msgCount - 1) = _
          rw [valid.count, pending_eq, i32]
          simp only [List.length_cons] at length_lt ⊢
          omega

theorem Tracked.Valid.step {before after : Tracked} (valid : before.Valid blocksize)
    (unwrapped : call.Unwrapped) (step : CallStep processExists call before after) :
    after.Valid blocksize := by
  cases step with
  | @enqueue mq next pending message exit returns =>
      obtain full | ⟨stored, returned, appended⟩ := valid.enqueue processExists unwrapped
      · rw [full] at returns
        cases returns
        exact valid
      · rw [returned] at returns
        cases returns
        rw [pendingAfterEnqueue_stored]
        exact appended
  | @dequeue mq pending buf result returns =>
      obtain ⟨_, empty⟩ | ⟨message, rest, pending_eq, ⟨_, small, cleared⟩ | ⟨_, taken, removed⟩⟩ :=
        valid.dequeue processExists buf
      · rw [empty] at returns
        cases returns
        exact valid
      · rw [small] at returns
        cases returns
        exact cleared
      · rw [taken] at returns
        cases returns
        have remaining : pendingAfterDequeue pending DequeueExit.taken.ret = rest := by
          simp only at pending_eq
          rw [pending_eq]
          rfl
        rw [remaining]
        exact removed
  | clear => exact ⟨valid.size_eq, valid.holds.clear, rfl⟩

theorem Reaches.valid {bytes : Nat → UInt8} (legal_unwrapped : ∀ call, legal call → call.Unwrapped)
    (size_ge : 16 ≤ shmsize - 12) (size_lt : shmsize < 2147483648)
    (reach : Reaches processExists legal shmsize bytes state) : state.Valid (shmsize - 12) := by
  induction reach with
  | refl => exact valid_init bytes size_ge size_lt
  | tail _ step induction =>
      obtain ⟨call, legal_call, step⟩ := step
      exact induction.step (legal_unwrapped call legal_call) step

theorem Call.Roomy.unwrapped (roomy : call.Roomy blocksize) : call.Unwrapped := by
  cases call with
  | enqueue message => exact roomy
  | dequeue buf | clear => trivial

/-- The queue is a FIFO of messages: in every state of a run of `enqueue` and `dequeue` calls, a
next `enqueue` stores its message or returns `COMMU_ERR_MQFULL` and changes nothing, and a next
`dequeue` gives back the oldest message still in the queue, or `COMMU_ERR_MQEMPTY` exactly when
there is none. -/
theorem reaches_fifo (processExists : Int → Bool) (shmsize : Nat) (bytes : Nat → UInt8)
    (size_ge : 16 ≤ shmsize - 12) (size_lt : shmsize < 2147483648) {state : Tracked}
    (reach : Reaches processExists (Call.Roomy (shmsize - 12)) shmsize bytes state) :
    (∀ message : Message, message.data.length + 16 < 4294967296 →
      ∃ exit next, state.mq.enqueue processExists message.data message.flow = some (exit, next) ∧
        (exit = .mqfull ∨ ∃ count, exit = .stored count ∧ 0 < count) ∧
        (exit.ret = commuErrMqfull → next = state.mq)) ∧
    ∀ buf : ByteRegion, shmsize - 12 ≤ buf.size →
      ∃ result, state.mq.dequeue processExists buf = some result ∧
        (result.exit = .taken ∨ result.exit = .mqempty) ∧
        (result.exit.ret = 0 → ∃ message rest, state.pending = message :: rest ∧
          slice result.buf.byte 0 result.dataLen = message.data ∧
          result.dataLen = message.data.length ∧ result.flow = some message.flow) ∧
        (result.exit.ret = commuErrMqempty ↔ state.pending = []) := by
  have valid := reach.valid (fun _ => Call.Roomy.unwrapped) size_ge size_lt
  constructor
  · intro message unwrapped
    obtain full | ⟨next, stored, _⟩ := valid.enqueue processExists unwrapped
    · exact ⟨.mqfull, state.mq, full, .inl rfl, fun _ => rfl⟩
    · refine ⟨_, next, stored, .inr ⟨_, rfl, by omega⟩, ?_⟩
      intro returned
      simp only [EnqueueExit.ret, commuErrMqfull] at returned
      omega
  · intro buf roomy
    obtain ⟨empty, returned⟩ | ⟨message, rest, pending_eq, ⟨small, _⟩ | ⟨_, returned, _⟩⟩ :=
      valid.dequeue processExists buf
    · refine ⟨_, returned, .inr rfl, ?_, ?_⟩
      · intro zero
        exact absurd (show DequeueExit.mqempty.ret = 0 from zero) (by decide)
      · simp [empty, DequeueExit.ret]
    · have room := valid.holds.room
      have size_eq := valid.size_eq
      rw [pending_eq, encodeAll_cons, List.length_append, Message.length_encode,
        Message.totalLen] at room
      omega
    · refine ⟨_, returned, .inl rfl, ?_, ?_⟩
      · intro _
        have copied := slice_splice buf.byte 0 (message.data ++ le32 cSafeAreaVal)
        rw [List.length_append, slice_add] at copied
        exact ⟨message, rest, pending_eq, (List.append_inj copied (by simp)).1, rfl, rfl⟩
      · simp [pending_eq, DequeueExit.ret, commuErrMqempty]

/-- A message of three bytes, used to instantiate the results on runs. -/
def sampleMessage : Message := ⟨[1, 2, 3], 7⟩

/-- The queue of a segment of 64 bytes in which `sampleMessage` was stored. -/
def sampleQueue : CShmMQ := ((init 64 fun _ => 0).append sampleMessage).counted

theorem reaches_sampleQueue (allowed : legal (.enqueue sampleMessage)) :
    Reaches (fun _ => false) legal 64 (fun _ => 0) ⟨sampleQueue, [sampleMessage]⟩ := by
  refine Relation.ReflTransGen.single ⟨.enqueue sampleMessage, allowed, ?_⟩
  exact CallStep.enqueue (@enqueue_eq (init 64 fun _ => 0) 0 sampleMessage (fun _ => false)
    (by decide) (by decide) (by decide) (by decide) (by decide))

theorem reaches_fifo_sample :
    ∃ result, sampleQueue.dequeue (fun _ => false) ⟨52, fun _ => 9⟩ = some result ∧
      (result.exit = .taken ∨ result.exit = .mqempty) ∧
      (result.exit.ret = 0 → ∃ message rest, [sampleMessage] = message :: rest ∧
        slice result.buf.byte 0 result.dataLen = message.data ∧
        result.dataLen = message.data.length ∧ result.flow = some message.flow) ∧
      (result.exit.ret = commuErrMqempty ↔ [sampleMessage] = []) :=
  (reaches_fifo (fun _ => false) 64 (fun _ => 0) (by decide) (by decide)
    (reaches_sampleQueue (by simp [Call.Roomy, sampleMessage]))).2 ⟨52, fun _ => 9⟩ (by decide)

/-! ## The representation invariant -/

/-- In every state of a run of `enqueue`, `dequeue` and `clear` calls, every further call is
defined, the offsets are positions of the block that never alias at its two ends, the bytes between
them are the records of the messages in the queue, the count is exact, and the two lengths of
`getstat` share the block. -/
theorem reaches_representation (processExists : Int → Bool) (shmsize : Nat)
    (bytes : Nat → UInt8) (size_ge : 16 ≤ shmsize - 12) (size_lt : shmsize < 2147483648)
    {state : Tracked} (reach : Reaches processExists Call.Unwrapped shmsize bytes state) :
    (∀ call : Call, call.Unwrapped → ∃ next, CallStep processExists call state next) ∧
    state.mq.blocksize = shmsize - 12 ∧
    state.mq.head ≤ shmsize - 12 ∧ state.mq.tail ≤ shmsize - 12 ∧
    ¬ (state.mq.head = 0 ∧ state.mq.tail = shmsize - 12) ∧
    ¬ (state.mq.head = shmsize - 12 ∧ state.mq.tail = 0) ∧
    (state.mq.head = state.mq.tail ↔ state.pending = []) ∧
    sliceCircular (shmsize - 12) state.mq.block.byte state.mq.head state.mq.getstat.usedlen =
      encodeAll state.pending ∧
    state.mq.pstat.msgCount = state.pending.length ∧
    state.mq.getstat.freelen + state.mq.getstat.usedlen = shmsize - 12 := by
  have valid := reach.valid (fun _ unwrapped => unwrapped) size_ge size_lt
  have holds := valid.holds
  have size_eq := valid.size_eq
  have head_le := holds.head_le
  have tail_le := holds.tail_le
  have tail_eq := holds.tail_eq
  have room := holds.room
  have content := holds.content
  have used_eq : state.mq.getstat.usedlen = (encodeAll state.pending).length := by
    simp only [getstat, u32]
    rw [tail_eq, advance]
    split <;> split <;> omega
  have ends_iff : state.mq.head = state.mq.tail ↔ state.pending = [] := by
    constructor
    · intro same
      have records := sixteen_mul_length_le state.pending
      by_contra nonempty
      have length_pos := List.length_pos_of_ne_nil nonempty
      exact advance_ne_self (by omega) room (tail_eq.symm.trans same.symm)
    · intro empty
      rw [tail_eq, empty, encodeAll_nil, List.length_nil, advance_zero head_le]
  rw [size_eq] at head_le tail_le tail_eq room content
  refine ⟨?_, size_eq, head_le, tail_le, ?_, ?_, ends_iff, ?_, valid.count, ?_⟩
  · intro call unwrapped
    cases call with
    | enqueue message =>
        obtain full | ⟨next, stored, _⟩ := valid.enqueue processExists unwrapped
        · exact ⟨_, .enqueue full⟩
        · exact ⟨_, .enqueue stored⟩
    | dequeue buf =>
        obtain ⟨_, empty⟩ | ⟨_, _, _, ⟨_, small, _⟩ | ⟨_, taken, _⟩⟩ :=
          valid.dequeue processExists buf
        · exact ⟨_, .dequeue empty⟩
        · exact ⟨_, .dequeue small⟩
        · exact ⟨_, .dequeue taken⟩
    | clear => exact ⟨_, .clear⟩
  · rintro ⟨head_zero, tail_end⟩
    rw [head_zero, tail_end, advance] at tail_eq
    split at tail_eq <;> omega
  · rintro ⟨head_end, tail_zero⟩
    rw [head_end, tail_zero, advance] at tail_eq
    split at tail_eq <;> omega
  · rw [used_eq]
    exact content
  · rw [used_eq]
    simp only [getstat, freeLen, u32, size_eq]
    rw [tail_eq, advance]
    split <;> split <;> omega

theorem reaches_representation_sample :
    16 ≤ 64 - 12 ∧ sampleQueue.head ≤ 64 - 12 ∧ sampleQueue.tail ≤ 64 - 12 ∧
      (sampleQueue.head = sampleQueue.tail ↔ [sampleMessage] = []) ∧
      sampleQueue.getstat.freelen + sampleQueue.getstat.usedlen = 64 - 12 := by
  obtain ⟨_, _, head_le, tail_le, _, _, ends_iff, _, _, lengths⟩ :=
    reaches_representation (fun _ => false) 64 (fun _ => 0) (by decide) (by decide)
      (reaches_sampleQueue (by simp [Call.Unwrapped, sampleMessage]))
  exact ⟨by decide, head_le, tail_le, ends_iff, lengths⟩

end CShmMQ
end Spp
