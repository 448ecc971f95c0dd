import Spp.ShmMQ.Concurrent

/-!
# Waking the consumers

The worker processes of a group take messages from one queue, and they wait for one FIFO when they
find none.  `CShmProducer::produce` writes a byte into it only if `msg_count` is one after its
message was counted.  The count is not read together with the offsets: a record is in the queue
before it is counted, `dequeue` lowers the count before it publishes the head, and
`CShmComsumerL::comsume` looks at the count before it takes the lock.
-/

namespace Spp
namespace CShmMQ

open CircularBuffer

/-- Where the producer is that holds the lock. -/
inductive Producing where
  | idle
  /-- There was room at the snapshot. -/
  | storing (message : Message) (tail : Nat)
  /-- The record is in the queue, but it is not counted. -/
  | stored
  /-- `enqueue` has returned one. -/
  | notifying

/-- Where the consumer is that holds the lock. -/
inductive Consuming (ι : Type*) where
  | idle
  | locked (who : ι)
  /-- The snapshot showed a record. -/
  | seen (who : ι) (head tail : Nat)
  /-- The count is lowered. -/
  | taking (who : ι) (head tail : Nat)

/-- The processes that share a queue.  A process without a lock waits for the FIFO, or it is about
to look at the queue. -/
structure Group (ι : Type*) where
  mq : CShmMQ
  producer : Producing
  consumer : Consuming ι
  waiting : ι → Bool
  /-- The bytes in the FIFO. -/
  fifo : Nat
  produced : List Message
  /-- The messages that were taken, and by whom. -/
  consumed : List (ι × Message)

section Steps

variable {ι : Type*} [DecidableEq ι]

/-- One atomic step of a process.  The FIFO has room for `capacity` bytes, and `buf` is as large as
the block. -/
inductive GroupStep (processExists : Int → Bool) (capacity : Nat) : Group ι → Group ι → Prop where
  /-- `enqueue` returns an error. -/
  | refuse {group : Group ι} {message : Message} {exit : EnqueueExit} {mq : CShmMQ}
      (idle : group.producer = .idle) (unwrapped : message.totalLen < 4294967296)
      (returns : group.mq.enqueue processExists message.data message.flow = some (exit, mq))
      (refused : ∀ count, exit ≠ .stored count) :
      GroupStep processExists capacity group { group with mq }
  /-- `enqueue` reads the offsets and finds room. -/
  | decide {group : Group ι} {mq : CShmMQ} {message : Message}
      (idle : group.producer = .idle) (unwrapped : message.totalLen < 4294967296)
      (checked : group.mq.doCheck processExists group.mq.head group.mq.tail = (true, mq))
      (room : ¬ mq.freeLen group.mq.head group.mq.tail ≤ recordLen message.data.length) :
      GroupStep processExists capacity group
        { group with mq, producer := .storing message group.mq.tail }
  /-- `enqueue` writes the record and publishes the tail. -/
  | store {group : Group ι} {message : Message} {tail : Nat} {exit : EnqueueExit} {next : CShmMQ}
      (storing : group.producer = .storing message tail)
      (returns : group.mq.storeRecord tail message.data message.flow = some (exit, next)) :
      GroupStep processExists capacity group
        { group with
          mq := { next with pstat := group.mq.pstat }
          producer := .stored
          produced := group.produced ++ [message] }
  /-- `enqueue` counts the message and returns the count. -/
  | count {group : Group ι} (stored : group.producer = .stored) :
      GroupStep processExists capacity group
        { group with
          mq := group.mq.counted
          producer := if group.mq.counted.pstat.msgCount = 1 then .notifying else .idle }
  /-- `produce` writes a byte, unless the FIFO is full. -/
  | notify {group : Group ι} (notifying : group.producer = .notifying) :
      GroupStep processExists capacity group
        { group with producer := .idle, fifo := min (group.fifo + 1) capacity }
  /-- `comsume` finds `msg_count` to be zero. -/
  | look {group : Group ι} {who : ι} (awake : group.waiting who = false)
      (empty : group.mq.isEmpty = true) :
      GroupStep processExists capacity group
        { group with waiting := Function.update group.waiting who true }
  /-- `comsume` takes the lock. -/
  | lock {group : Group ι} {who : ι} (awake : group.waiting who = false)
      (free : group.consumer = .idle) :
      GroupStep processExists capacity group { group with consumer := .locked who }
  /-- `dequeue` finds invalid offsets or no record. -/
  | nothing {group : Group ι} {who : ι} {valid : Bool} {mq : CShmMQ}
      (locked : group.consumer = .locked who)
      (checked : group.mq.doCheck processExists group.mq.head group.mq.tail = (valid, mq))
      (empty : valid = true → group.mq.head = group.mq.tail) :
      GroupStep processExists capacity group
        { group with mq, consumer := .idle, waiting := Function.update group.waiting who true }
  /-- `dequeue` reads the offsets and finds a record. -/
  | see {group : Group ι} {who : ι} {mq : CShmMQ} (locked : group.consumer = .locked who)
      (checked : group.mq.doCheck processExists group.mq.head group.mq.tail = (true, mq))
      (shown : group.mq.head ≠ group.mq.tail) :
      GroupStep processExists capacity group
        { group with mq, consumer := .seen who group.mq.head group.mq.tail }
  /-- `dequeue` lowers the count. -/
  | lower {group : Group ι} {who : ι} {head tail : Nat}
      (seen : group.consumer = .seen who head tail) :
      GroupStep processExists capacity group
        { group with
          mq := { group.mq with pstat := { group.mq.pstat with
            msgCount := i32 (group.mq.pstat.msgCount - 1) } }
          consumer := .taking who head tail }
  /-- `dequeue` copies the record out and publishes the head; after an error the caller waits. -/
  | take {group : Group ι} {who : ι} {head tail : Nat} {buf : ByteRegion} {result : DequeueResult}
      (taking : group.consumer = .taking who head tail) (large : group.mq.blocksize ≤ buf.size)
      (returns : group.mq.takeRecord processExists head (group.mq.usedLen head tail) buf =
        some result) :
      GroupStep processExists capacity group
        { group with
          mq := result.mq
          consumer := .idle
          waiting := Function.update group.waiting who (result.exit.ret != 0)
          consumed := group.consumed ++
            if result.exit.ret = 0 then [(who, result.message)] else [] }
  /-- The wait ends: `notify_recv` reads up to 64 bytes, or none after a timeout. -/
  | wake {group : Group ι} {who : ι} {taken : Nat} (waits : group.waiting who = true)
      (few : taken ≤ 64) :
      GroupStep processExists capacity group
        { group with
          waiting := Function.update group.waiting who false
          fifo := group.fifo - taken }

/-- Interleavings of any length, from a new segment and an empty FIFO. -/
def GroupReaches (processExists : Int → Bool) (capacity shmsize : Nat) (bytes : Nat → UInt8) :
    Group ι → Prop :=
  Relation.ReflTransGen (GroupStep processExists capacity)
    { mq := init shmsize bytes
      producer := .idle
      consumer := .idle
      waiting := fun _ => false
      fifo := 0
      produced := []
      consumed := [] }

end Steps

/-! ## The invariant -/

variable {ι : Type*} {group next : Group ι} {pending : List Message} {blocksize capacity : Nat}
  {processExists : Int → Bool}

/-- A message that is not counted yet. -/
def Producing.uncounted : Producing → Nat
  | .stored => 1
  | _ => 0

theorem Producing.uncounted_le (producer : Producing) : producer.uncounted ≤ 1 := by
  cases producer <;> simp [uncounted]

/-- A count that is lowered too early. -/
def Consuming.lowered : Consuming ι → Nat
  | .taking _ _ _ => 1
  | _ => 0

theorem Consuming.lowered_le (consumer : Consuming ι) : consumer.lowered ≤ 1 := by
  cases consumer <;> simp [lowered]

/-- What the producer's snapshot still guarantees. -/
def Producing.Safe (mq : CShmMQ) (pending : List Message) : Producing → Prop
  | .storing message tail => tail = mq.tail ∧ message.totalLen < 4294967296 ∧
      (encodeAll pending).length + message.totalLen < mq.blocksize
  | _ => True

/-- What the consumer's snapshot still guarantees. -/
def Consuming.Safe (mq : CShmMQ) (pending : List Message) : Consuming ι → Prop
  | .seen _ head tail | .taking _ head tail =>
      (ConsumerPhase.taking head tail ⟨0, fun _ => 0⟩).Safe mq pending
  | _ => True

/-- The invariant; `pending` are the records in the queue. -/
structure Group.Valid (blocksize : Nat) (group : Group ι) (pending : List Message) : Prop where
  size_eq : group.mq.blocksize = blocksize
  holds : Holds group.mq pending
  history : group.produced = group.consumed.map Prod.snd ++ pending
  count : group.mq.pstat.msgCount =
    pending.length - group.producer.uncounted - group.consumer.lowered
  producer_safe : group.producer.Safe group.mq pending
  consumer_safe : group.consumer.Safe group.mq pending
  /-- Nobody waits for good while a counted message is in the queue. -/
  woken : 0 < group.mq.pstat.msgCount → group.consumer = .idle → (∀ who, group.waiting who = true) →
    0 < group.fifo ∨ group.producer = .notifying

namespace Group.Valid

variable (valid : group.Valid blocksize pending)
include valid

theorem length_lt : pending.length < 134217728 := by
  have records := sixteen_mul_length_le pending
  have room := valid.holds.room
  have size_lt := valid.holds.size_lt
  omega

theorem doCheck : group.mq.doCheck processExists group.mq.head group.mq.tail = (true, group.mq) :=
  doCheck_valid valid.holds.head_le valid.holds.tail_le

/-- The offsets differ if and only if there is a record. -/
theorem head_eq_tail_iff : group.mq.head = group.mq.tail ↔ pending = [] := by
  have tail_eq := valid.holds.tail_eq
  cases pending with
  | nil => exact iff_of_true (tail_eq.trans (advance_zero valid.holds.head_le)).symm rfl
  | cons message rest =>
      refine iff_of_false (fun same => ?_) (List.cons_ne_nil _ _)
      rw [tail_eq] at same
      exact advance_ne_self (by simp [Message.totalLen]) valid.holds.room same.symm

/-- A record is in the queue. -/
theorem store {message : Message} {tail : Nat} {exit : EnqueueExit} {mq : CShmMQ}
    (storing : group.producer = .storing message tail)
    (returns : group.mq.storeRecord tail message.data message.flow = some (exit, mq)) :
    Group.Valid blocksize
      { group with
        mq := { mq with pstat := group.mq.pstat }
        producer := .stored
        produced := group.produced ++ [message] }
      (pending ++ [message]) := by
  have safe := valid.producer_safe
  have count := valid.count
  rw [storing] at safe count
  obtain ⟨rfl, -, room⟩ := safe
  rw [storeRecord_eq valid.holds.size_lt valid.holds.tail_le (by omega)] at returns
  cases returns
  refine ⟨valid.size_eq, valid.holds.append room, ?_, ?_, trivial, ?_, ?_⟩
  · rw [valid.history, List.append_assoc]
  · simp only [Producing.uncounted, List.length_append, List.length_singleton] at count ⊢
    omega
  · have seen := valid.consumer_safe
    cases consumer_eq : group.consumer with
    | idle | locked who => trivial
    | seen who head tail | taking who head tail =>
        rw [consumer_eq] at seen
        obtain ⟨head_eq, first, rest, unseen, rfl, tail_eq⟩ := seen
        exact ⟨head_eq, first, rest, unseen ++ [message], by simp, tail_eq⟩
  · intro positive idle all
    refine Or.inl ((valid.woken positive idle all).resolve_right ?_)
    rw [storing]
    exact nofun

/-- A message is counted: if it is the only one, then the consumers are notified. -/
theorem counted (stored : group.producer = .stored) :
    Group.Valid blocksize
      { group with
        mq := group.mq.counted
        producer := if group.mq.counted.pstat.msgCount = 1 then .notifying else .idle }
      pending := by
  have length_lt := valid.length_lt
  have count := valid.count
  have woken := valid.woken
  rw [stored] at count woken
  have lowered_le := group.consumer.lowered_le
  have count_eq : group.mq.counted.pstat.msgCount = pending.length - group.consumer.lowered := by
    show i32 (group.mq.pstat.msgCount + 1) = _
    rw [count, Producing.uncounted, i32]
    omega
  refine ⟨valid.size_eq, valid.holds.counted, valid.history, ?_, ?_, ?_, ?_⟩
  · refine count_eq.trans ?_
    dsimp only
    split <;> simp [Producing.uncounted]
  · dsimp only
    split <;> trivial
  · have safe := valid.consumer_safe
    cases consumer_eq : group.consumer <;> rw [consumer_eq] at safe <;> exact safe
  · intro (positive : 0 < group.mq.counted.pstat.msgCount) idle all
    dsimp only
    split
    · exact Or.inr rfl
    · rename_i many
      simp only [Producing.uncounted] at count
      exact Or.inl ((woken (by omega) idle all).resolve_right (by simp))

/-- The oldest record is taken out. -/
theorem take {who : ι} {head tail : Nat} {buf : ByteRegion} {result : DequeueResult}
    [DecidableEq ι] (taking : group.consumer = .taking who head tail)
    (large : group.mq.blocksize ≤ buf.size)
    (returns : group.mq.takeRecord processExists head (group.mq.usedLen head tail) buf =
      some result) :
    ∃ pending, Group.Valid blocksize
      { group with
        mq := result.mq
        consumer := .idle
        waiting := Function.update group.waiting who (result.exit.ret != 0)
        consumed := group.consumed ++ if result.exit.ret = 0 then [(who, result.message)] else [] }
      pending := by
  have safe := valid.consumer_safe
  have count := valid.count
  have holds := valid.holds
  have history := valid.history
  rw [taking] at safe count
  obtain ⟨rfl, message, rest, unseen, rfl, rfl⟩ := safe
  have room := holds.room
  simp only [encodeAll_append, encodeAll_cons, List.length_append, Message.length_encode] at room
  have total_def : message.totalLen = message.data.length + 16 := rfl
  rw [usedLen_eq holds.size_lt holds.head_le (by simp; omega) (by simp; omega),
    takeRecord_eq processExists holds (by simp) (by simp; omega), if_neg (by omega)] at returns
  cases returns
  refine ⟨rest ++ unseen, valid.size_eq, { holds.removeFirst with }, ?_, ?_, ?_, trivial, ?_⟩
  · show _ = (group.consumed ++ [(who, DequeueResult.message _)]).map Prod.snd ++ _
    rw [message_taken, history]
    simp
  · simp only [Consuming.lowered, List.cons_append, List.length_cons] at count ⊢
    omega
  · have safe := valid.producer_safe
    cases producer_eq : group.producer with
    | idle | stored | notifying => trivial
    | storing message tail =>
        rw [producer_eq] at safe
        obtain ⟨tail_eq, unwrapped, fits⟩ := safe
        refine ⟨tail_eq, unwrapped, ?_⟩
        simp only [List.cons_append, encodeAll_cons, List.length_append] at fits
        show _ < group.mq.blocksize
        omega
  · intro _ _ all
    exact absurd ((Function.update_self ..).symm.trans (all who)) Bool.false_ne_true

/-- One step of a process keeps the invariant. -/
theorem step [DecidableEq ι] (positive : 0 < capacity)
    (step : GroupStep processExists capacity group next) :
    ∃ pending, next.Valid blocksize pending := by
  have holds := valid.holds
  have count := valid.count
  have length_lt := valid.length_lt
  cases step with
  | @refuse message exit mq idle unwrapped returns refused =>
      rw [enqueue_eq processExists holds.size_lt holds.head_le holds.room holds.tail_eq
        unwrapped] at returns
      split at returns
      · cases returns
        exact ⟨pending, valid⟩
      · cases returns
        exact absurd rfl (refused _)
  | @decide _ message idle unwrapped checked room =>
      rw [valid.doCheck] at checked
      cases checked
      rw [recordLen_eq unwrapped, holds.tail_eq, freeLen_eq holds.size_lt holds.room] at room
      rw [idle] at count
      refine ⟨pending, { valid with
        count := count
        producer_safe := ⟨rfl, unwrapped, ?_⟩
        woken := fun positive free all => ?_ }⟩
      · show _ < group.mq.blocksize
        omega
      · exact Or.inl ((valid.woken positive free all).resolve_right (by rw [idle]; exact nofun))
  | store storing returns => exact ⟨_, valid.store storing returns⟩
  | count stored => exact ⟨_, valid.counted stored⟩
  | notify notifying =>
      rw [notifying] at count
      exact ⟨pending, { valid with
        count := count
        producer_safe := trivial
        woken := fun _ _ _ => Or.inl (lt_min (Nat.succ_pos _) positive) }⟩
  | look awake empty =>
      have none_counted : group.mq.pstat.msgCount = 0 := of_decide_eq_true empty
      exact ⟨pending, { valid with
        woken := fun some_counted => absurd none_counted (Int.ne_of_gt some_counted) }⟩
  | lock awake free =>
      rw [free] at count
      exact ⟨pending, { valid with count := count, consumer_safe := trivial, woken := nofun }⟩
  | @nothing who _ _ locked checked empty =>
      rw [valid.doCheck] at checked
      cases checked
      rw [locked] at count
      have none_left := valid.head_eq_tail_iff.1 (empty rfl)
      refine ⟨pending, { valid with count := count, consumer_safe := trivial, woken := ?_ }⟩
      intro some_counted
      simp only [none_left, Consuming.lowered, List.length_nil] at count some_counted
      omega
  | @see who _ locked checked shown =>
      rw [valid.doCheck] at checked
      cases checked
      rw [locked] at count
      obtain ⟨message, rest, rfl⟩ :=
        List.exists_cons_of_ne_nil (shown ∘ valid.head_eq_tail_iff.2)
      exact ⟨message :: rest, { valid with
        count := count
        consumer_safe := ⟨rfl, message, rest, [], by simp, holds.tail_eq⟩
        woken := nofun }⟩
  | @lower who head tail seen =>
      have safe := valid.consumer_safe
      rw [seen] at count safe
      have uncounted_le := group.producer.uncounted_le
      refine ⟨pending, valid.size_eq, { holds with }, valid.history, ?_, ?_, safe, nofun⟩
      · show i32 (group.mq.pstat.msgCount - 1) = _
        rw [count, i32]
        simp only [Consuming.lowered]
        omega
      · have safe := valid.producer_safe
        cases producer_eq : group.producer <;> rw [producer_eq] at safe <;> exact safe
  | take taking large returns => exact valid.take taking large returns
  | @wake who _ waits few =>
      exact ⟨pending, { valid with
        woken := fun _ _ all =>
          absurd ((Function.update_self ..).symm.trans (all who)) Bool.false_ne_true }⟩

end Group.Valid

theorem GroupReaches.valid [DecidableEq ι] {shmsize : Nat} {bytes : Nat → UInt8}
    (positive : 0 < capacity) (size_ge : 16 ≤ shmsize - 12) (size_lt : shmsize < 2147483648)
    (reach : GroupReaches processExists capacity shmsize bytes group) :
    ∃ pending, group.Valid (shmsize - 12) pending := by
  induction reach with
  | refl =>
      have start := valid_init bytes size_ge size_lt
      exact ⟨[], rfl, start.holds, rfl, rfl, trivial, trivial, fun counted => nomatch counted⟩
  | tail _ step induction =>
      obtain ⟨pending, valid⟩ := induction
      exact valid.step positive step

/-- No wake-up is lost.  If there is a record in the queue while every consumer waits, then a byte
is in the FIFO, or the producer is about to write one: it has counted its message as the first one,
or it will do so next. -/
theorem groupReaches_woken [DecidableEq ι] (processExists : Int → Bool) {capacity shmsize : Nat}
    (bytes : Nat → UInt8) (positive : 0 < capacity) (size_ge : 16 ≤ shmsize - 12)
    (size_lt : shmsize < 2147483648) {group : Group ι}
    (reach : GroupReaches processExists capacity shmsize bytes group)
    (shown : group.mq.head ≠ group.mq.tail) (idle : group.consumer = .idle)
    (all : ∀ who, group.waiting who = true) :
    0 < group.fifo ∨ group.producer = .notifying ∨
      (group.producer = .stored ∧ group.mq.counted.pstat.msgCount = 1) := by
  obtain ⟨pending, valid⟩ := reach.valid positive size_ge size_lt
  have some_left := List.length_pos_of_ne_nil (shown ∘ valid.head_eq_tail_iff.2)
  have count := valid.count
  rw [idle] at count
  by_cases counted : 0 < group.mq.pstat.msgCount
  · exact (valid.woken counted idle all).imp_right Or.inl
  · cases producer_eq : group.producer with
    | stored =>
        rw [producer_eq] at count
        simp only [Producing.uncounted, Consuming.lowered] at count
        refine Or.inr (Or.inr ⟨rfl, ?_⟩)
        show i32 (group.mq.pstat.msgCount + 1) = 1
        rw [show group.mq.pstat.msgCount = 0 by omega]
        rfl
    | idle | storing _ _ | notifying =>
        rw [producer_eq] at count
        simp only [Producing.uncounted, Consuming.lowered] at count
        omega

/-- Any number of consumers take the messages in the order in which they were produced, each one
once and unchanged, and `msg_count` counts the messages left while no process is at work. -/
theorem groupReaches_delivered [DecidableEq ι] (processExists : Int → Bool)
    {capacity shmsize : Nat} (bytes : Nat → UInt8) (positive : 0 < capacity)
    (size_ge : 16 ≤ shmsize - 12) (size_lt : shmsize < 2147483648) {group : Group ι}
    (reach : GroupReaches processExists capacity shmsize bytes group) :
    group.consumed.map Prod.snd <+: group.produced ∧
      (group.mq.head = group.mq.tail ↔ group.consumed.map Prod.snd = group.produced) ∧
      (group.producer = .idle → group.consumer = .idle →
        group.mq.pstat.msgCount = group.produced.length - group.consumed.length) := by
  obtain ⟨pending, valid⟩ := reach.valid positive size_ge size_lt
  have history := valid.history
  refine ⟨⟨pending, history.symm⟩, ?_, fun none_stores none_takes => ?_⟩
  · rw [valid.head_eq_tail_iff, history, List.self_eq_append_right]
  · rw [valid.count, none_stores, none_takes, history, List.length_append, List.length_map]
    simp only [Producing.uncounted, Consuming.lowered]
    omega

/-- A consumer looks between the record and its count. -/
theorem exists_groupReaches_stored :
    ∃ group : Group Unit, GroupReaches (fun _ => false) 1 64 (fun _ => 0) group ∧
      group.mq.head ≠ group.mq.tail ∧ group.consumer = .idle ∧ group.fifo = 0 ∧
      (∀ who, group.waiting who = true) ∧ group.producer = .stored :=
  ⟨_, ((Relation.ReflTransGen.single
      (@GroupStep.decide Unit _ _ _ _ _ sampleMessage rfl (by decide) rfl (by decide))).tail
      (.store rfl (storeRecord_eq (by decide) (by decide) (by decide)))).tail
      (@GroupStep.look Unit _ _ _ _ () rfl rfl),
    by decide, rfl, rfl, fun _ => rfl, rfl⟩

theorem groupReaches_woken_sample :
    ∃ group : Group Unit, (∀ who, group.waiting who = true) ∧ group.producer = .stored ∧
      group.mq.counted.pstat.msgCount = 1 := by
  obtain ⟨group, reach, shown, idle, empty, all, stored⟩ := exists_groupReaches_stored
  have woken := groupReaches_woken (fun _ => false) (fun _ => 0) Nat.one_pos (by decide) (by decide)
    reach shown idle all
  rw [empty, stored] at woken
  exact ⟨group, all, stored, ((woken.resolve_left nofun).resolve_left nofun).2⟩

/-- One of two consumers has taken the first of two messages. -/
theorem groupReaches_delivered_one :
    ∃ group : Group Bool, GroupReaches (fun _ => false) 1 64 (fun _ => 0) group ∧
      group.produced = [sampleMessage, ⟨[4, 5], 8⟩] ∧ group.consumed = [(true, sampleMessage)] ∧
      group.consumed.map Prod.snd <+: group.produced ∧
      (group.mq.head = group.mq.tail ↔ group.consumed.map Prod.snd = group.produced) := by
  have decided := Relation.ReflTransGen.single (@GroupStep.decide Bool _ (fun _ => false) 1
    ⟨init 64 fun _ => 0, .idle, .idle, fun _ => false, 0, [], []⟩ _ sampleMessage rfl (by decide)
    rfl (by decide))
  have stored := decided.tail (.store rfl (Option.some_get (by decide)).symm)
  have counted := stored.tail (.count rfl)
  have locked := counted.tail (@GroupStep.lock _ _ _ _ _ true rfl rfl)
  have seen := locked.tail (.see rfl rfl (by decide))
  have notified := seen.tail (.notify rfl)
  have lowered := notified.tail (.lower rfl)
  have taken := lowered.tail (@GroupStep.take _ _ _ _ _ _ _ _ ⟨64, fun _ => 0⟩ _ rfl (by decide)
    (Option.some_get (by decide)).symm)
  have again := taken.tail (@GroupStep.decide _ _ _ _ _ _ ⟨[4, 5], 8⟩ rfl (by decide) rfl
    (by decide))
  have second := again.tail (.store rfl (Option.some_get (by decide)).symm)
  obtain ⟨in_order, empty_iff, -⟩ := groupReaches_delivered (fun _ => false) (fun _ => 0)
    Nat.one_pos (by decide) (by decide) second
  exact ⟨_, second, rfl, by decide, in_order, empty_iff⟩

end CShmMQ
end Spp
