import Spp.ShmMQ.Fifo

/-!
# One producer and one consumer

`enqueue` and `dequeue` each run in two atomic steps: the first reads the offsets and decides, the
second moves the bytes and publishes the own offset.  Steps of the two processes interleave freely.
-/

namespace Spp
namespace CShmMQ

open CircularBuffer

/-- Where the producer is. -/
inductive ProducerPhase where
  | idle
  /-- There was room at the snapshot; the record will be written at `tail`. -/
  | storing (message : Message) (tail : Nat)

/-- Where the consumer is. -/
inductive ConsumerPhase where
  | idle
  | taking (head tail : Nat) (buf : ByteRegion)

/-- The shared queue, the two processes, and what they were told. -/
structure System where
  mq : CShmMQ
  producer : ProducerPhase
  consumer : ConsumerPhase
  /-- Messages whose `enqueue` returned a nonnegative value, oldest first. -/
  enqueued : List Message
  /-- Messages that a `dequeue` returning zero gave to the consumer, oldest first. -/
  obtained : List Message

/-- The message that is taken. -/
def DequeueResult.message (result : DequeueResult) : Message where
  data := slice result.buf.byte 0 result.dataLen
  flow := result.flow.getD 0

/-- One atomic step of the producer or of the consumer.  A step is missing only where a write would
leave the block, and where `dequeue` would call `clear` because the caller's buffer is too small. -/
inductive SystemStep (processExists : Int → Bool) : System → System → Prop where
  /-- `enqueue` reads the offsets and finds them invalid. -/
  | enqueueInvalid {system : System} {mq : CShmMQ} (idle : system.producer = .idle)
      (checked : system.mq.doCheck processExists system.mq.head system.mq.tail = (false, mq)) :
      SystemStep processExists system { system with mq }
  /-- `enqueue` reads the offsets and returns `COMMU_ERR_MQFULL`. -/
  | enqueueFull {system : System} {mq : CShmMQ} {message : Message}
      (idle : system.producer = .idle) (unsigned : message.data.length < 4294967296)
      (checked : system.mq.doCheck processExists system.mq.head system.mq.tail = (true, mq))
      (full : mq.freeLen system.mq.head system.mq.tail ≤ recordLen message.data.length) :
      SystemStep processExists system { system with mq }
  | enqueueDecide {system : System} {mq : CShmMQ} {message : Message}
      (idle : system.producer = .idle) (unsigned : message.data.length < 4294967296)
      (checked : system.mq.doCheck processExists system.mq.head system.mq.tail = (true, mq))
      (room : ¬ mq.freeLen system.mq.head system.mq.tail ≤ recordLen message.data.length) :
      SystemStep processExists system
        { system with mq, producer := .storing message system.mq.tail }
  /-- `enqueue` writes the record and publishes the tail. -/
  | enqueueStore {system : System} {message : Message} {tail : Nat} {exit : EnqueueExit}
      {mq : CShmMQ} (storing : system.producer = .storing message tail)
      (returns : system.mq.storeRecord tail message.data message.flow = some (exit, mq)) :
      SystemStep processExists system
        { system with
          mq
          producer := .idle
          enqueued := pendingAfterEnqueue system.enqueued message exit.ret }
  /-- `dequeue` reads the offsets and finds them invalid. -/
  | dequeueInvalid {system : System} {mq : CShmMQ} (idle : system.consumer = .idle)
      (checked : system.mq.doCheck processExists system.mq.head system.mq.tail = (false, mq)) :
      SystemStep processExists system { system with mq }
  /-- `dequeue` reads the offsets and returns `COMMU_ERR_MQEMPTY`. -/
  | dequeueEmpty {system : System} {mq : CShmMQ} (idle : system.consumer = .idle)
      (checked : system.mq.doCheck processExists system.mq.head system.mq.tail = (true, mq))
      (empty : system.mq.head = system.mq.tail) :
      SystemStep processExists system { system with mq }
  | dequeueSee {system : System} {mq : CShmMQ} {buf : ByteRegion}
      (idle : system.consumer = .idle)
      (checked : system.mq.doCheck processExists system.mq.head system.mq.tail = (true, mq))
      (seen : system.mq.head ≠ system.mq.tail) :
      SystemStep processExists system
        { system with mq, consumer := .taking system.mq.head system.mq.tail buf }
  /-- `dequeue` copies the record out and publishes the head. -/
  | dequeueTake {system : System} {head tail : Nat} {buf : ByteRegion} {result : DequeueResult}
      (taking : system.consumer = .taking head tail buf)
      (returns : system.mq.takeOut processExists head tail buf = some result)
      (kept : result.exit ≠ .otfbuff) :
      SystemStep processExists system
        { system with
          mq := result.mq
          consumer := .idle
          obtained :=
            if result.exit.ret = 0 then system.obtained ++ [result.message]
            else system.obtained }

/-- Interleavings of any length, from a new segment of `shmsize` bytes. -/
def SystemReaches (processExists : Int → Bool) (shmsize : Nat) (bytes : Nat → UInt8) :
    System → Prop :=
  Relation.ReflTransGen (SystemStep processExists)
    { mq := init shmsize bytes
      producer := .idle
      consumer := .idle
      enqueued := []
      obtained := [] }

/-- What the producer's decision still guarantees: the record goes to the current tail, and the
unread records leave room for it. -/
def ProducerPhase.Safe (mq : CShmMQ) (pending : List Message) : ProducerPhase → Prop
  | .idle => True
  | .storing message tail =>
      tail = mq.tail ∧ message.data.length < 4294967296 ∧
        (message.totalLen < 4294967296 →
          (encodeAll pending).length + message.totalLen < mq.blocksize)

/-- What the consumer's snapshot still guarantees: it starts at the current head and ends with
whole published records, of which there is at least one. -/
def ConsumerPhase.Safe (mq : CShmMQ) (pending : List Message) : ConsumerPhase → Prop
  | .idle => True
  | .taking head tail _ =>
      head = mq.head ∧ ∃ message rest unseen, pending = (message :: rest) ++ unseen ∧
        tail = advance mq.blocksize mq.head (encodeAll (message :: rest)).length

/-- The invariant of every interleaving; `pending` are the published and unread records. -/
structure System.Valid (blocksize : Nat) (system : System) (pending : List Message) : Prop where
  tracked : Tracked.Valid blocksize ⟨system.mq, pending⟩
  history : system.enqueued = system.obtained ++ pending
  producer_safe : system.producer.Safe system.mq pending
  consumer_safe : system.consumer.Safe system.mq pending

section Valid

variable {processExists : Int → Bool} {blocksize : Nat} {system : System}
  {pending : List Message}

theorem System.Valid.doCheck (valid : system.Valid blocksize pending) :
    system.mq.doCheck processExists system.mq.head system.mq.tail = (true, system.mq) :=
  doCheck_valid valid.tracked.holds.head_le valid.tracked.holds.tail_le

/-- The producer's second step stores its message, whatever the consumer did since the first. -/
theorem System.Valid.store (valid : system.Valid blocksize pending) {message : Message}
    {tail : Nat} (storing : system.producer = .storing message tail)
    (unwrapped : message.totalLen < 4294967296) :
    system.mq.storeRecord tail message.data message.flow =
        some (.stored (pending.length + 1), (system.mq.append message).counted) ∧
      Tracked.Valid blocksize ⟨(system.mq.append message).counted, pending ++ [message]⟩ := by
  have safe := valid.producer_safe
  rw [storing] at safe
  obtain ⟨rfl, _, room⟩ := safe
  have room := room unwrapped
  have holds := valid.tracked.holds
  have total_le : message.totalLen ≤ system.mq.blocksize := by omega
  have count : system.mq.pstat.msgCount = pending.length := valid.tracked.count
  have count_eq : i32 (system.mq.pstat.msgCount + 1) = pending.length + 1 := by
    rw [count]
    exact i32_succ valid.tracked.length_lt
  refine ⟨?_, valid.tracked.size_eq, (holds.append room).counted, ?_⟩
  · rw [← count_eq]
    exact storeRecord_eq holds.size_lt holds.tail_le total_le
  · refine Eq.trans count_eq ?_
    simp

/-- The consumer's second step finds the oldest unread message, whatever the producer did since the
first. -/
theorem System.Valid.take (processExists : Int → Bool) (valid : system.Valid blocksize pending)
    {head tail : Nat} {buf : ByteRegion} (taking : system.consumer = .taking head tail buf) :
    ∃ message rest, pending = message :: rest ∧
      (system.mq.takeOut processExists head tail buf =
        if message.data.length + 4 > buf.size then
          some ⟨.otfbuff, buf, 0, some message.flow, system.mq.clear⟩
        else
          some ⟨.taken,
            { buf with byte := splice buf.byte 0 (message.data ++ le32 cSafeAreaVal) },
            message.data.length, some message.flow, system.mq.removeFirst message⟩) ∧
      Tracked.Valid blocksize ⟨system.mq.removeFirst message, rest⟩ := by
  have safe := valid.consumer_safe
  rw [taking] at safe
  obtain ⟨rfl, message, rest, unseen, rfl, rfl⟩ := safe
  have holds := valid.tracked.holds
  have seen : message.totalLen ≤ (encodeAll (message :: rest)).length := by simp
  have seen_lt : (encodeAll (message :: rest)).length < system.mq.blocksize := by
    have room := holds.room
    simp only [encodeAll_append, List.length_append] at room
    omega
  refine ⟨message, rest ++ unseen, rfl, takeOut_eq processExists holds seen seen_lt buf,
    valid.tracked.size_eq, holds.removeFirst, ?_⟩
  have length_lt := valid.tracked.length_lt
  have count : system.mq.pstat.msgCount = ((message :: rest) ++ unseen).length :=
    valid.tracked.count
  simp only [List.cons_append, List.length_cons] at length_lt count
  show i32 (system.mq.pstat.msgCount - 1) = (rest ++ unseen).length
  rw [count, i32]
  omega

theorem message_taken (buf : ByteRegion) (message : Message) (mq : CShmMQ) :
    (DequeueResult.mk .taken
      { buf with byte := splice buf.byte 0 (message.data ++ le32 cSafeAreaVal) }
      message.data.length (some message.flow) mq).message = message := by
  have copied := slice_splice buf.byte 0 (message.data ++ le32 cSafeAreaVal)
  rw [List.length_append, slice_add] at copied
  have data_eq := (List.append_inj copied (by simp)).1
  simp only [DequeueResult.message, data_eq, Option.getD_some]

theorem System.Valid.step {next : System} (valid : system.Valid blocksize pending)
    (step : SystemStep processExists system next) :
    ∃ pending, next.Valid blocksize pending := by
  have holds : Holds system.mq pending := valid.tracked.holds
  cases step with
  | enqueueInvalid idle checked =>
      rw [valid.doCheck] at checked
      cases checked
  | enqueueFull idle unsigned checked full =>
      rw [valid.doCheck] at checked
      cases checked
      exact ⟨pending, valid⟩
  | @enqueueDecide _ message idle unsigned checked room =>
      rw [valid.doCheck] at checked
      cases checked
      refine ⟨pending, valid.tracked, valid.history, ⟨rfl, unsigned, ?_⟩, valid.consumer_safe⟩
      intro unwrapped
      rw [recordLen_eq unwrapped, holds.tail_eq, freeLen_eq holds.size_lt holds.room] at room
      show _ < system.mq.blocksize
      omega
  | @enqueueStore message tail exit mq storing returns =>
      have safe := valid.producer_safe
      rw [storing] at safe
      by_cases unwrapped : message.totalLen < 4294967296
      · obtain ⟨stored, tracked⟩ := valid.store storing unwrapped
        rw [stored] at returns
        cases returns
        refine ⟨pending ++ [message], tracked, ?_, trivial, ?_⟩
        · simp only [pendingAfterEnqueue_stored, valid.history, List.append_assoc]
        · have seen := valid.consumer_safe
          cases consumer_eq : system.consumer with
          | idle => trivial
          | taking head tail buf =>
              rw [consumer_eq] at seen
              obtain ⟨head_eq, first, rest, unseen, rfl, tail_eq⟩ := seen
              exact ⟨head_eq, first, rest, unseen ++ [message], by simp, tail_eq⟩
      · have refused : system.mq.storeRecord tail message.data message.flow = none :=
          storeRecord_wrapped message.flow holds.size_lt (not_lt.mp unwrapped) safe.2.1
        rw [refused] at returns
        cases returns
  | dequeueInvalid idle checked =>
      rw [valid.doCheck] at checked
      cases checked
  | dequeueEmpty idle checked empty =>
      rw [valid.doCheck] at checked
      cases checked
      exact ⟨pending, valid⟩
  | dequeueSee idle checked seen =>
      rw [valid.doCheck] at checked
      cases checked
      refine ⟨pending, valid.tracked, valid.history, valid.producer_safe, rfl, ?_⟩
      cases pending with
      | nil => exact absurd (holds.tail_eq.trans (advance_zero holds.head_le)).symm seen
      | cons message rest => exact ⟨message, rest, [], by simp, holds.tail_eq⟩
  | @dequeueTake head tail buf result taking returns kept =>
      obtain ⟨message, rest, rfl, taken, tracked⟩ := valid.take processExists taking
      rw [taken] at returns
      split at returns
      · cases returns
        exact absurd rfl kept
      · cases returns
        refine ⟨rest, tracked, ?_, ?_, trivial⟩
        · have given : DequeueExit.taken.ret = 0 := rfl
          simp only [if_pos given, message_taken, valid.history, List.append_assoc,
            List.singleton_append]
        · have safe := valid.producer_safe
          cases producer_eq : system.producer with
          | idle => trivial
          | storing message tail =>
              rw [producer_eq] at safe
              obtain ⟨tail_eq, unsigned, room⟩ := safe
              refine ⟨tail_eq, unsigned, fun unwrapped => ?_⟩
              have room := room unwrapped
              simp only [encodeAll_cons, List.length_append] at room
              show _ < system.mq.blocksize
              omega

end Valid

theorem SystemReaches.valid {processExists : Int → Bool} {shmsize : Nat} {bytes : Nat → UInt8}
    {system : System} (size_ge : 16 ≤ shmsize - 12) (size_lt : shmsize < 2147483648)
    (reach : SystemReaches processExists shmsize bytes system) :
    ∃ pending, system.Valid (shmsize - 12) pending := by
  induction reach with
  | refl => exact ⟨[], valid_init bytes size_ge size_lt, rfl, trivial, trivial⟩
  | tail _ step induction =>
      obtain ⟨pending, valid⟩ := induction
      exact valid.step step

/-- In every interleaving of one producer with one consumer, the messages obtained are a prefix of
the messages enqueued.  The rest of them is in the queue: a store decided on an old head leaves
their bytes alone and adds its own record behind them, and a take decided on an old tail gives the
oldest of them (or clears the queue when the caller's buffer is too small for it). -/
theorem systemReaches_prefix (processExists : Int → Bool) (shmsize : Nat) (bytes : Nat → UInt8)
    (size_ge : 16 ≤ shmsize - 12) (size_lt : shmsize < 2147483648) {system : System}
    (reach : SystemReaches processExists shmsize bytes system) :
    system.obtained <+: system.enqueued ∧
    ∃ pending, system.enqueued = system.obtained ++ pending ∧ Holds system.mq pending ∧
      (∀ message tail, system.producer = .storing message tail →
        message.data.length + 16 < 4294967296 →
        ∃ count next,
          system.mq.storeRecord tail message.data message.flow = some (.stored count, next) ∧
          0 < count ∧ Holds next (pending ++ [message]) ∧
          sliceCircular (shmsize - 12) next.block.byte system.mq.head (encodeAll pending).length =
            sliceCircular (shmsize - 12) system.mq.block.byte system.mq.head
              (encodeAll pending).length) ∧
      ∀ head tail buf, system.consumer = .taking head tail buf →
        ∃ message rest result, pending = message :: rest ∧
          system.mq.takeOut processExists head tail buf = some result ∧
          (message.data.length + 4 ≤ buf.size → result.exit = .taken ∧ result.message = message) ∧
          (buf.size < message.data.length + 4 → result.exit = .otfbuff) := by
  obtain ⟨pending, valid⟩ := reach.valid size_ge size_lt
  have holds := valid.tracked.holds
  refine ⟨⟨pending, valid.history.symm⟩, pending, valid.history, holds, ?_, ?_⟩
  · intro message tail storing unwrapped
    obtain ⟨stored, tracked⟩ := valid.store storing unwrapped
    refine ⟨_, _, stored, by omega, tracked.holds, ?_⟩
    have safe := valid.producer_safe
    rw [storing] at safe
    have room : (encodeAll pending).length + message.encode.length ≤ system.mq.blocksize := by
      rw [Message.length_encode]
      exact (safe.2.2 unwrapped).le
    have frame := sliceCircular_spliceCircular_frame system.mq.block.byte holds.head_le room
    rw [← holds.tail_eq] at frame
    rw [← show system.mq.blocksize = shmsize - 12 from valid.tracked.size_eq]
    exact frame
  · intro head tail buf taking
    obtain ⟨message, rest, pending_eq, taken, _⟩ := valid.take processExists taking
    by_cases small : message.data.length + 4 > buf.size
    · rw [if_pos small] at taken
      exact ⟨message, rest, _, pending_eq, taken, fun fits => absurd small (by omega),
        fun _ => rfl⟩
    · rw [if_neg small] at taken
      exact ⟨message, rest, _, pending_eq, taken, fun _ => ⟨rfl, message_taken _ _ _⟩,
        fun short => absurd short small⟩

/-- The consumer takes one message while the producer stores another one. -/
theorem systemReaches_prefix_one :
    ∃ system : System, SystemReaches (fun _ => false) 64 (fun _ => 0) system ∧
      system.enqueued = [sampleMessage, ⟨[4, 5], 8⟩] ∧ system.obtained = [sampleMessage] ∧
      system.obtained <+: system.enqueued := by
  have decided := Relation.ReflTransGen.single (@SystemStep.enqueueDecide (fun _ => false)
    ⟨init 64 fun _ => 0, .idle, .idle, [], []⟩ _ sampleMessage rfl (by decide) rfl (by decide))
  have stored := decided.tail (.enqueueStore rfl (Option.some_get (by decide)).symm)
  have seen := stored.tail (@SystemStep.dequeueSee _ _ _ ⟨64, fun _ => 0⟩ rfl rfl (by decide))
  have again := seen.tail
    (@SystemStep.enqueueDecide _ _ _ ⟨[4, 5], 8⟩ rfl (by decide) rfl (by decide))
  have taken := again.tail (.dequeueTake rfl (Option.some_get (by decide)).symm (by decide))
  have second := taken.tail (.enqueueStore rfl (Option.some_get (by decide)).symm)
  have in_order := systemReaches_prefix (fun _ => false) 64 (fun _ => 0) (by decide) (by decide)
    second
  exact ⟨_, second, by decide, by decide, in_order.1⟩

end CShmMQ
end Spp
