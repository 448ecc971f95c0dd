import Spp.MicroThread.CacheRun

/-!
# Sending from a cache

`cache_tcp_send` and `cache_tcp_send_buff` send the blocks of a cache one after the other, take out
what the socket has accepted, and append what is left of new data.
-/

namespace Spp

/-- What `send` does. -/
inductive SendOutcome where
  /-- The socket accepts some bytes, at most those that are offered. -/
  | accepted (count : Nat)
  | again
  | failed

/-- A socket with the results of the calls of `send` to come. -/
structure SendSocket where
  sent : List UInt8
  next : Nat → SendOutcome
  again : Bool

/-- `send`, with its result as an `int32_t`. -/
def SendSocket.send (socket : SendSocket) (bytes : List UInt8) : Int × SendSocket :=
  let next := fun call => socket.next (call + 1)
  match socket.next 0 with
  | .accepted count =>
      (i32 (bytes.take count).length, ⟨socket.sent ++ bytes.take count, next, socket.again⟩)
  | .again => (-1, ⟨socket.sent, next, true⟩)
  | .failed => (-1, ⟨socket.sent, next, false⟩)

namespace TRWCache

open TSkBuffMng

variable {ι : Type} [DecidableEq ι]

/-- The loop of `cache_tcp_send`: `ret`, `total` and the socket. -/
def sendLoop (pool : TSkBuffMng ι) (socket : SendSocket) (ret total : Int) : (list : List ι) →
    Option (Int × Int × SendSocket)
  | [] => some (ret, total, socket)
  | ptr :: list => do
      let item ← pool.block ptr
      let bytes ← item.memory.read item.data item.dataLen
      let sent := socket.send bytes
      if sent.1 < 0 then
        return (sent.1, total, sent.2)
      else
        let total ← int32 (total + sent.1)
        if sent.1 < i32 item.dataLen then
          return (sent.1, total, sent.2)
        else
          sendLoop pool sent.2 sent.1 total list

/-- A cache and its socket. -/
structure Sender (ι : Type) extends Queue ι where
  socket : SendSocket

namespace Sender

/-- `cache_tcp_send` -/
def cacheTcpSend (sender : Sender ι) : Option (Int × Sender ι) :=
  if sender.cache.len = 0 then
    some (0, sender)
  else do
    let sent ← sendLoop sender.pool sender.socket 0 0 sender.cache.list
    let skipped ← sender.cache.cacheSkipData sender.pool (u32 sent.2.1)
    let after : Sender ι := ⟨⟨skipped.1, skipped.2⟩, sent.2.2⟩
    return (if sent.1 < 0 ∧ sent.2.2.again = false then -2 else sent.2.1, after)

/-- The second part of `cache_tcp_send_buff`: `send_len` and the socket, or `none` for an error. -/
def sendDirect (sender : Sender ι) (data : List UInt8) : Option Nat × SendSocket :=
  if sender.cache.len = 0 then
    let sent := sender.socket.send data
    if sent.1 ≥ 0 then
      (some sent.1.toNat, sent.2)
    else if sent.2.again then
      (some 0, sent.2)
    else
      (none, sent.2)
  else
    (some 0, sender.socket)

/-- `cache_tcp_send_buff` -/
def cacheTcpSendBuff (sender : Sender ι) (data : List UInt8) : Option (Int × Sender ι) := do
  let cached ← sender.cacheTcpSend
  if cached.1 < 0 then
    return cached
  else
    let sender := cached.2
    let direct := sender.sendDirect data
    match direct.1 with
    | none => return (-2, { sender with socket := direct.2 })
    | some sendLen =>
        let appended ← sender.cache.cacheAppendData sender.pool (data.drop sendLen)
        let after : Sender ι := ⟨⟨appended.2.1, appended.2.2⟩, direct.2⟩
        return (if appended.1 < 0 then -3 else (sendLen : Int), after)

end Sender

/-- A sender with the bytes that were passed to it. -/
structure Passed (ι : Type) where
  sender : Sender ι
  passed : List UInt8

/-- The calls, and memory that becomes free. -/
inductive SendEvent (ι : Type) where
  | tcpSend
  | tcpSendBuff (data : List UInt8)
  | malloc (list : List (ι × (Nat → UInt8)))

/-- A call returns no error. -/
def Passed.Steps (before after : Passed ι) : SendEvent ι → Prop
  | .tcpSend => ∃ ret sender, before.sender.cacheTcpSend = some (ret, sender) ∧ 0 ≤ ret ∧
      after = ⟨sender, before.passed⟩
  | .tcpSendBuff data => data.length < 4294967296 ∧ ∃ ret sender,
      before.sender.cacheTcpSendBuff data = some (ret, sender) ∧ 0 ≤ ret ∧
      after = ⟨sender, before.passed ++ data⟩
  | .malloc list => (list.map Prod.fst).Nodup ∧
      (∀ fresh ∈ list, before.sender.pool.block fresh.1 = none) ∧
      after = ⟨{ before.sender with pool := { before.sender.pool with malloc := list } },
        before.passed⟩

/-- The bytes in the cache stay fewer than 2^31. -/
def SendEvent.Safe (before : Passed ι) : SendEvent ι → Prop
  | .tcpSendBuff data => before.sender.content.length + data.length < 2147483648
  | _ => True

/-- A new cache; nothing is sent. -/
def Passed.start (pool : TSkBuffMng ι) (next : Nat → SendOutcome) (again : Bool) : Passed ι :=
  ⟨⟨⟨init, pool⟩, ⟨[], next, again⟩⟩, []⟩

/-- Runs with a fresh cache and a socket. -/
def SendReaches (pool : TSkBuffMng ι) (next : Nat → SendOutcome) (again : Bool) (state : Passed ι) :
    Prop :=
  Initial pool ∧ Relation.ReflTransGen
    (fun before after => ∃ event : SendEvent ι, before.Steps after event)
    (Passed.start pool next again) state

/-- The states of a run in which few bytes are in the cache. -/
def SafeSendReaches (pool : TSkBuffMng ι) (next : Nat → SendOutcome) (again : Bool)
    (state : Passed ι) : Prop :=
  Initial pool ∧ pool.size ≤ 4294967232 ∧ Relation.ReflTransGen
    (fun before after => ∃ event : SendEvent ι, event.Safe before ∧ before.Steps after event)
    (Passed.start pool next again) state

section Send

variable {pool : TSkBuffMng ι} {list : List ι} {sender after : Sender ι} {socket : SendSocket}
  {data : List UInt8}

/-- `send` of fewer than 2^31 bytes accepts some of them, or it fails. -/
theorem send_cases (socket : SendSocket) (short : data.length < 2147483648) :
    (∃ count ≤ data.length, (socket.send data).1 = count ∧
      (socket.send data).2.sent = socket.sent ++ data.take count) ∨
    (socket.send data).1 = -1 ∧ (socket.send data).2.sent = socket.sent := by
  unfold SendSocket.send
  cases socket.next 0 with
  | accepted count =>
      have le : (data.take count).length ≤ data.length := List.length_take_le' count data
      have take_eq := @List.take_left _ (data.take count) (data.drop count)
      rw [List.take_append_drop] at take_eq
      exact Or.inl ⟨(data.take count).length, le, i32_of_lt (by omega),
        congrArg (socket.sent ++ ·) take_eq.symm⟩
  | again | failed => exact Or.inr ⟨rfl, rfl⟩

omit [DecidableEq ι] in
/-- The loop of `cache_tcp_send` sends a first part of the content and counts it. -/
theorem sendLoop_eq (sound : pool.Sound list) (socket : SendSocket) (ret : Int) (total : Nat)
    (small : total + (pool.content list).length < 2147483648) :
    ∃ last count after,
      sendLoop pool socket ret total list = some (last, ((total + count : Nat) : Int), after) ∧
      count ≤ (pool.content list).length ∧
      after.sent = socket.sent ++ (pool.content list).take count := by
  induction list generalizing socket ret total with
  | nil => exact ⟨ret, 0, socket, rfl, Nat.zero_le _, by simp⟩
  | cons ptr list induction =>
      obtain ⟨block, found, fits⟩ := sound.fits ptr List.mem_cons_self
      have sound_rest : pool.Sound list :=
        ⟨sound.nodup.of_cons, fun other member => sound.fits other (List.mem_cons_of_mem _ member),
          sound.empty, sound.unused, sound.fresh_nodup, sound.size_pos, sound.size_le⟩
      have content_eq := content_cons found list
      have length_eq := block.length_content
      have reads : block.memory.read block.data block.dataLen = some block.content := by
        have taken := (fits.skip (le_refl block.dataLen)).2.1
        rwa [List.take_of_length_le length_eq.le] at taken
      rw [content_eq, List.length_append] at small
      simp only [sendLoop, found, Option.bind_eq_bind, Option.bind_some, reads]
      rcases send_cases socket (show block.content.length < 2147483648 by omega) with
        ⟨count, count_le, ret_eq, sent_eq⟩ | ⟨ret_eq, sent_eq⟩
      · have total_eq : int32 ((total : Int) + (count : Int)) =
          some ((total + count : Nat) : Int) := by
          rw [← Nat.cast_add]
          exact int32_of_nat (by omega)
        have part : (block.content ++ pool.content list).take count = block.content.take count :=
          List.take_append_of_le_length count_le
        rw [ret_eq, if_neg (by omega), total_eq,
          i32_of_lt (show block.dataLen < 2147483648 by omega)]
        simp only [Option.bind_some]
        by_cases partly : (count : Int) < (block.dataLen : Int)
        · rw [if_pos partly]
          refine ⟨_, count, _, rfl, ?_, ?_⟩
          · rw [content_eq, List.length_append]
            omega
          · rw [sent_eq, content_eq, part]
        · rw [if_neg partly]
          obtain rfl : count = block.content.length := by omega
          obtain ⟨last, more, after, loops, more_le, after_eq⟩ :=
            induction sound_rest (socket.send block.content).2 block.content.length
              (total + block.content.length) (by omega)
          refine ⟨last, block.content.length + more, after, ?_, ?_, ?_⟩
          · rw [loops, Nat.add_assoc]
          · rw [content_eq, List.length_append]
            omega
          · rw [after_eq, sent_eq, content_eq, List.take_length, List.take_length_add_append,
              List.append_assoc]
      · rw [ret_eq, if_pos (by decide)]
        exact ⟨_, 0, _, rfl, Nat.zero_le _, by rw [sent_eq, List.take_zero, List.append_nil]⟩

/-- What a run keeps: the cache works, and it contains what is left to send. -/
structure SendHolds (sender : Sender ι) : Prop extends Holds sender.toQueue where
  few : sender.content.length < 2147483648

theorem SendHolds.cacheTcpSend (holds : SendHolds sender) :
    ∃ ret after, sender.cacheTcpSend = some (ret, after) ∧ SendHolds after ∧
      after.socket.sent ++ after.content = sender.socket.sent ++ sender.content ∧
      after.content.length ≤ sender.content.length := by
  rw [Sender.cacheTcpSend]
  by_cases empty : sender.cache.len = 0
  · rw [if_pos empty]
    exact ⟨0, sender, rfl, holds, rfl, le_rfl⟩
  · rw [if_neg empty]
    obtain ⟨last, count, socket, loops, count_le, sent_eq⟩ :=
      sendLoop_eq holds.sound sender.socket 0 0 (by
        rw [Nat.zero_add]
        exact holds.few)
    rw [Nat.zero_add] at loops
    have few := holds.few
    have count_eq : u32 ((count : Nat) : Int) = count := by
      have : count ≤ sender.content.length := count_le
      rw [u32]
      omega
    obtain ⟨cache, pool, skips, still, content_eq⟩ := holds.skipData count
    rw [Nat.cast_zero] at loops
    simp only [loops, Option.bind_eq_bind, Option.bind_some, count_eq, skips]
    refine ⟨_, _, rfl, ⟨still, ?_⟩, ?_, ?_⟩
    · show (pool.content cache.list).length < _
      rw [content_eq, List.length_drop]
      omega
    · show socket.sent ++ pool.content cache.list = _
      rw [sent_eq, content_eq, List.append_assoc]
      exact congrArg _ (List.take_append_drop count _)
    · show (pool.content cache.list).length ≤ _
      rw [content_eq, List.length_drop]
      omega

omit [DecidableEq ι] in
theorem SendHolds.sendDirect (holds : SendHolds sender) (short : data.length < 2147483648) :
    (sender.sendDirect data).1 = none ∨
      ∃ count ≤ data.length, (sender.sendDirect data).1 = some count ∧
        (count = 0 ∨ sender.content = []) ∧
        (sender.sendDirect data).2.sent = sender.socket.sent ++ data.take count := by
  rw [Sender.sendDirect]
  by_cases empty : sender.cache.len = 0
  · have no_content : sender.content = [] :=
      List.eq_nil_of_length_eq_zero (holds.len_eq.symm.trans empty)
    rw [if_pos empty]
    rcases send_cases sender.socket short with ⟨count, count_le, ret_eq, sent_eq⟩ | ⟨ret_eq,
      sent_eq⟩
    · simp only [ret_eq]
      rw [if_pos (by omega)]
      exact Or.inr ⟨count, count_le, rfl, Or.inr no_content, sent_eq⟩
    · simp only [ret_eq]
      rw [if_neg (by decide)]
      split
      · exact Or.inr ⟨0, Nat.zero_le _, rfl, Or.inl rfl, by simp [sent_eq]⟩
      · exact Or.inl rfl
  · rw [if_neg empty]
    exact Or.inr ⟨0, Nat.zero_le _, rfl, Or.inl rfl, by simp⟩

theorem SendHolds.cacheTcpSendBuff (holds : SendHolds sender)
    (small : sender.content.length + data.length < 2147483648) :
    ∃ ret after, sender.cacheTcpSendBuff data = some (ret, after) ∧ SendHolds after ∧
      (0 ≤ ret →
      after.socket.sent ++ after.content = sender.socket.sent ++ sender.content ++ data) := by
  obtain ⟨cached, between, sends, holds, moved, shorter⟩ := holds.cacheTcpSend
  simp only [Sender.cacheTcpSendBuff, sends, Option.bind_eq_bind, Option.bind_some]
  by_cases fails : cached < 0
  · rw [if_pos fails]
    exact ⟨cached, between, rfl, holds, fun nonneg => absurd fails (not_lt.2 nonneg)⟩
  · rw [if_neg fails]
    rcases holds.sendDirect (show data.length < 2147483648 by omega) with
      direct_eq | ⟨count, count_le, direct_eq, order, sent_eq⟩
    · simp only [direct_eq]
      exact ⟨-2, _, rfl, ⟨holds.toHolds, holds.few⟩, fun nonneg => absurd nonneg (by decide)⟩
    · have drop_length : (data.drop count).length ≤ data.length := by
        rw [List.length_drop]
        omega
      obtain ⟨rc, cache, pool, appends, still, outcome⟩ := holds.append
        (show (data.drop count).length < 2147483648 by omega)
        (show between.content.length + (data.drop count).length < 4294967296 by omega)
      simp only [direct_eq, appends, Option.bind_some]
      refine ⟨_, _, rfl, ⟨still, ?_⟩, ?_⟩
      · show (pool.content cache.list).length < _
        rcases outcome with ⟨-, content_eq⟩ | ⟨-, content_eq, -⟩
        · rw [content_eq, List.length_append]
          exact lt_of_le_of_lt (Nat.add_le_add shorter drop_length) small
        · rw [content_eq]
          exact holds.few
      · intro nonneg
        rcases outcome with ⟨-, content_eq⟩ | ⟨rfl, -⟩
        · show (between.sendDirect data).2.sent ++ pool.content cache.list = _
          rw [sent_eq, content_eq, ← moved]
          rcases order with rfl | no_content
          · simp
          · change between.content = [] at no_content
            rw [show between.toQueue.content = [] from no_content]
            simp
        · rw [if_pos (by decide)] at nonneg
          exact absurd nonneg (by decide)

theorem SendHolds.step {before after : Passed ι} {event : SendEvent ι}
    (holds : SendHolds before.sender)
    (passes : before.sender.socket.sent ++ before.sender.content = before.passed)
    (safe : event.Safe before) (steps : before.Steps after event) :
    SendHolds after.sender ∧ after.sender.socket.sent ++ after.sender.content = after.passed := by
  cases event with
  | tcpSend =>
      obtain ⟨ret, sender, sends, -, rfl⟩ := steps
      obtain ⟨ret, same, sends_same, still, moved, -⟩ := holds.cacheTcpSend
      cases sends_same.symm.trans sends
      exact ⟨still, moved.trans passes⟩
  | tcpSendBuff data =>
      obtain ⟨-, ret, sender, sends, nonneg, rfl⟩ := steps
      obtain ⟨ret, same, sends_same, still, moved⟩ := holds.cacheTcpSendBuff safe
      cases sends_same.symm.trans sends
      exact ⟨still, (moved nonneg).trans (congrArg (· ++ data) passes)⟩
  | malloc list =>
      obtain ⟨nodup, unused, rfl⟩ := steps
      exact ⟨{ holds with
        sound := { holds.sound with unused := unused, fresh_nodup := nodup } }, passes⟩

/-- In every run in which few bytes are in the cache, the bytes that the socket has accepted and
those in the cache are the bytes that were passed. -/
theorem safeSendReaches_passed {next : Nat → SendOutcome} {again : Bool} {state : Passed ι}
    (reaches : SafeSendReaches pool next again state) :
    state.sender.socket.sent ++ state.sender.content = state.passed := by
  obtain ⟨initial, size_le, run⟩ := reaches
  suffices SendHolds state.sender ∧
      state.sender.socket.sent ++ state.sender.content = state.passed from this.2
  induction run with
  | refl =>
      have start : Reaches pool ⟨init, pool⟩ := ⟨initial, Relation.ReflTransGen.refl⟩
      exact ⟨⟨start.holds size_le, show 0 < 2147483648 by decide⟩, rfl⟩
  | tail _ steps induction =>
      obtain ⟨event, safe, steps⟩ := steps
      exact induction.1.step induction.2 safe steps

/-! ## A socket that accepts nothing -/

theorem appendLoop_one {ptr : ι} {byte : Nat → UInt8} {malloc : List (ι × (Nat → UInt8))}
    (rounds : Nat) (free_eq : pool.freeList = []) (malloc_eq : pool.malloc = (ptr, byte) :: malloc)
    (size_le : pool.size ≤ 4294967232) (nonempty : data ≠ [])
    (fits : data.length ≤ (newBlock pool.size byte).size) :
    ∃ memory, appendLoop (rounds + 1) pool [] data = some (some [ptr],
      { pool with malloc }.setBlock ptr ⟨pool.size, 0, pool.size, 0, data.length, memory⟩) := by
  have enough := mallocSize_eq size_le
  have pos : data.length > 0 := List.length_pos_of_ne_nil nonempty
  have allocates : pool.allocSkBuffer =
      some (some ptr, { pool with malloc }.setBlock ptr (newBlock pool.size byte)) := by
    simp only [allocSkBuffer, free_eq, newSkBuffer, malloc_eq]
    rw [if_neg (by omega)]
  have writes : (newBlock pool.size byte).memory.write (newBlock pool.size byte).head data =
      some ⟨mallocSize pool.size - skBuffOffset, splice byte 0 data⟩ :=
    ByteRegion.write_eq (by simp only [newBlock] at fits ⊢; omega)
  refine ⟨⟨mallocSize pool.size - skBuffOffset, splice byte 0 data⟩, ?_⟩
  simp only [appendLoop, if_pos pos, allocates, Option.bind_eq_bind, Option.bind_some,
    setBlock_block,
    if_pos fits, List.take_length, writes, List.nil_append]
  simp only [setBlock, Function.update_idem]
  rfl

/-- The socket accepts nothing, the last block is full, and `malloc` gives a block: the data is in
the new block. -/
structure Stuck (sender : Sender ι) (fresh : List ι) : Prop where
  sound : sender.pool.Sound sender.cache.list
  count_eq : sender.cache.count = sender.cache.list.length
  ready : sender.cache.list = [] ∧ sender.cache.len = 0 ∨ sender.cache.len ≠ 0 ∧
    ∃ ptr rest block, sender.cache.list = ptr :: rest ∧ sender.pool.block ptr = some block ∧
      0 < block.dataLen
  full : remain sender.pool sender.cache.list.getLast? = some 0
  free_eq : sender.pool.freeList = []
  malloc_eq : sender.pool.malloc.map Prod.fst = fresh

/-- The socket after `EAGAIN`. -/
def SendSocket.refused (socket : SendSocket) : SendSocket :=
  ⟨socket.sent, fun call => socket.next (call + 1), true⟩

theorem send_refused (again : socket.next 0 = .again) (data : List UInt8) :
    socket.send data = (-1, SendSocket.refused socket) := by
  simp only [SendSocket.send, again, SendSocket.refused]

theorem Stuck.cacheTcpSend {fresh : List ι} (stuck : Stuck sender fresh)
    (again : sender.socket.next 0 = .again) (nonzero : sender.cache.len ≠ 0) :
    sender.cacheTcpSend = some (0, { sender with socket := SendSocket.refused sender.socket }) := by
  obtain ⟨-, ptr, rest, block, list_eq, found, has_bytes⟩ :=
    stuck.ready.resolve_left fun empty => nonzero empty.2
  obtain ⟨same, same_found, fits⟩ := stuck.sound.fits ptr (list_eq ▸ List.mem_cons_self)
  cases found.symm.trans same_found
  have reads := (fits.skip (le_refl block.dataLen)).2.1
  have loops : sendLoop sender.pool sender.socket 0 0 sender.cache.list =
      some (-1, 0, SendSocket.refused sender.socket) := by
    simp only [list_eq, sendLoop, found, Option.bind_eq_bind, Option.bind_some, reads,
      send_refused again]
    rfl
  have copies : copyLoop false sender.pool 0 sender.cache.count sender.cache.list =
      some ⟨0, [], sender.cache.list, sender.cache.count, sender.pool⟩ := by
    have same_pool : sender.pool.setBlock ptr block = sender.pool := by
      rw [setBlock, Function.update_eq_self_iff.2 found.symm]
    simp only [list_eq, copyLoop, found, Option.bind_eq_bind, Option.bind_some, if_pos has_bytes,
      copyBytes, Nat.sub_zero, Nat.add_zero, same_pool, Bool.false_eq_true, if_false]
    rfl
  have skips : sender.cache.cacheSkipData sender.pool (u32 0) =
    some (sender.cache, sender.pool) := by
    simp only [cacheSkipData, cacheCopyOut, show u32 0 = 0 from rfl, copies, Option.bind_eq_bind,
      Option.bind_some, Nat.sub_zero]
    show some (TRWCache.mk _ (if sender.cache.len > 0 then sender.cache.len else 0) _, _) = _
    rw [if_pos (Nat.pos_of_ne_zero nonzero)]
  rw [Sender.cacheTcpSend, if_neg nonzero]
  simp only [loops, Option.bind_eq_bind, Option.bind_some, skips]
  rfl

theorem appended_eq {cache later : TRWCache ι} {after : TSkBuffMng ι} {ret : Int}
    (sound : pool.Sound cache.list) (nonempty : data ≠ [])
    (appends : cache.cacheAppendData pool data = some (ret, later, after)) (works : ret ≠ -2) :
    after.Sound later.list ∧ after.content later.list = pool.content cache.list ++ data := by
  rcases cacheAppendData_eq sound nonempty with
    ⟨same, fails, -⟩ | ⟨new, same, appended, sound_after, content_eq⟩
  · have same_result := fails.symm.trans appends
    simp only [Option.some.injEq, Prod.mk.injEq] at same_result
    exact absurd same_result.1.symm works
  · have same_result := appended.symm.trans appends
    simp only [Option.some.injEq, Prod.mk.injEq] at same_result
    obtain ⟨-, rfl, rfl⟩ := same_result
    exact ⟨sound_after, content_eq⟩

theorem Stuck.cacheTcpSendBuff {ptr : ι} {fresh : List ι} (stuck : Stuck sender (ptr :: fresh))
    (again : sender.socket.next 0 = .again) (nonempty : data ≠ [])
    (fits : data.length ≤ sender.pool.size) (short : data.length < 2147483648) :
    ∃ after, sender.cacheTcpSendBuff data = some (0, after) ∧
      after.socket = SendSocket.refused sender.socket ∧ after.pool.size = sender.pool.size ∧
      after.cache.len = u32 (sender.cache.len + data.length) ∧
      after.content = sender.content ++ data ∧
      (data.length = sender.pool.size → after.cache.len ≠ 0 → Stuck after fresh) := by
  obtain ⟨first, malloc, malloc_eq, rfl, fresh_eq⟩ := List.map_eq_cons_iff.1 stuck.malloc_eq
  obtain ⟨ptr, byte⟩ := first
  obtain ⟨memory, loops⟩ := appendLoop_one data.length stuck.free_eq malloc_eq stuck.sound.size_le
    nonempty fits
  have sends : ∃ between : Sender ι, sender.cacheTcpSend = some (0, between) ∧
      between.toQueue = sender.toQueue ∧
      between.sendDirect data = (some 0, SendSocket.refused sender.socket) := by
    by_cases empty : sender.cache.len = 0
    · refine ⟨sender, by rw [Sender.cacheTcpSend, if_pos empty], rfl, ?_⟩
      simp only [Sender.sendDirect, if_pos empty, send_refused again]
      rfl
    · exact ⟨_, stuck.cacheTcpSend again empty, rfl, by
        rw [Sender.sendDirect]
        exact if_neg empty⟩
  obtain ⟨between, sends, same, direct⟩ := sends
  have appends : sender.cache.cacheAppendData sender.pool data = some (i32 data.length,
      ⟨sender.cache.list ++ [ptr], u32 (sender.cache.len + data.length), sender.cache.count + 1⟩,
      { sender.pool with malloc }.setBlock ptr
        ⟨sender.pool.size, 0, sender.pool.size, 0, data.length, memory⟩) := by
    have pos := List.length_pos_of_ne_nil nonempty
    rw [cacheAppendData, if_neg (by omega)]
    simp only [stuck.full, Option.bind_eq_bind, Option.bind_some]
    rw [if_neg (by omega)]
    simp only [List.drop_zero, loops, List.take_zero, fillRemain, Option.bind_some]
    rfl
  obtain ⟨sound, content_eq⟩ := appended_eq stuck.sound nonempty appends (by
    rw [i32_of_lt short]
    omega)
  obtain ⟨queue, socket⟩ := between
  change queue = sender.toQueue at same
  subst same
  let later : TSkBuffMng ι := { sender.pool with malloc }.setBlock ptr
    ⟨sender.pool.size, 0, sender.pool.size, 0, data.length, memory⟩
  refine ⟨⟨⟨⟨sender.cache.list ++ [ptr], u32 (sender.cache.len + data.length),
    sender.cache.count + 1⟩,
    later⟩, SendSocket.refused sender.socket⟩, ?_, rfl, rfl, rfl, content_eq, ?_⟩
  rotate_right
  · intro all_used nonzero
    have unused : sender.pool.block ptr = none :=
      stuck.sound.unused (ptr, byte) (malloc_eq ▸ List.mem_cons_self)
    refine ⟨sound, ?_, Or.inr ⟨nonzero, ?_⟩, ?_, stuck.free_eq, fresh_eq⟩
    · show sender.cache.count + 1 = (sender.cache.list ++ [ptr]).length
      rw [stuck.count_eq, List.length_append, List.length_singleton]
    · rcases stuck.ready with ⟨no_blocks, -⟩ | ⟨-, first, rest, block, list_eq, found, has_bytes⟩
      · refine ⟨ptr, [], _, ?_, setBlock_block .., List.length_pos_of_ne_nil nonempty⟩
        show sender.cache.list ++ [ptr] = [ptr]
        rw [no_blocks, List.nil_append]
      · refine ⟨first, rest ++ [ptr], block, ?_, (setBlock_of_ne _ _ ?_).trans found, has_bytes⟩
        · show sender.cache.list ++ [ptr] = first :: (rest ++ [ptr])
          rw [list_eq, List.cons_append]
        · rintro rfl
          cases unused.symm.trans found
    · show remain _ (sender.cache.list ++ [ptr]).getLast? = some 0
      rw [List.getLast?_concat, remain_eq (setBlock_block ..)]
      simp only [Nat.sub_zero, all_used, Nat.sub_self]
  · simp only [Sender.cacheTcpSendBuff, sends, Option.bind_eq_bind, Option.bind_some]
    rw [if_neg (by decide)]
    simp only [direct, List.drop_zero, appends, Option.bind_some]
    rw [if_neg (by rw [i32_of_lt short]; omega)]
    rfl

/-- If the cache looks empty, a byte that the socket accepts is sent at once. -/
theorem cacheTcpSendBuff_one (empty : sender.cache.len = 0)
    (accepts : sender.socket.next 0 = .accepted 1) (byte : UInt8) :
    ∃ after, sender.cacheTcpSendBuff [byte] = some (1, after) ∧ after.content = sender.content ∧
      after.socket.sent = sender.socket.sent ++ [byte] := by
  have sends : sender.cacheTcpSend = some (0, sender) := by
    rw [Sender.cacheTcpSend, if_pos empty]
  have direct : sender.sendDirect [byte] =
      (some 1, ⟨sender.socket.sent ++ [byte], fun call => sender.socket.next (call + 1),
        sender.socket.again⟩) := by
    simp only [Sender.sendDirect, if_pos empty, SendSocket.send, accepts, List.take_succ_cons,
      List.take_nil, List.length_singleton, i32_of_lt (show 1 < 2147483648 by decide)]
    rfl
  refine ⟨{ sender with
    socket := ⟨sender.socket.sent ++ [byte], fun call => sender.socket.next (call + 1),
      sender.socket.again⟩ }, ?_, rfl, rfl⟩
  simp only [Sender.cacheTcpSendBuff, sends, Option.bind_eq_bind, Option.bind_some, direct]
  rfl

end Send

/-! ## Samples -/

/-- The socket accepts a byte of three. -/
def partlySent : Option (Int × Sender Nat) :=
  (Passed.start (onePool 65536) (fun _ => .accepted 1) false).sender.cacheTcpSendBuff [1, 2, 3]

/-- What the call gives. -/
def partlyResult : Int × Sender Nat := partlySent.get (by decide)

theorem partlySent_eq : partlySent = some (partlyResult.1, partlyResult.2) := by
  rw [Prod.mk.eta]
  exact (Option.some_get _).symm

/-- The state after this call. -/
def partlyPassed : Passed Nat := ⟨partlyResult.2, [1, 2, 3]⟩

theorem safeSendReaches_passed_sample :
    SafeSendReaches (onePool 65536) (fun _ => .accepted 1) false partlyPassed ∧
      partlyPassed.sender.socket.sent = [1] ∧ partlyPassed.sender.content = [2, 3] ∧
      partlyPassed.sender.socket.sent ++ partlyPassed.sender.content = partlyPassed.passed := by
  have reaches : SafeSendReaches (onePool 65536) (fun _ => .accepted 1) false partlyPassed := by
    refine ⟨initial_onePool (by decide) (by decide), by decide, Relation.ReflTransGen.single
      ⟨.tcpSendBuff [1, 2, 3], show 0 + 3 < 2147483648 by decide, by decide, partlyResult.1,
        partlyResult.2, partlySent_eq, by decide, rfl⟩⟩
  exact ⟨reaches, by decide, by decide, safeSendReaches_passed reaches⟩

/-- An empty pool with blocks of 2^31 - 1 bytes; `malloc` gives three blocks. -/
def threeBlocks : TSkBuffMng Nat where
  freeList := []
  size := 2147483647
  block := fun _ => none
  malloc := [(0, fun _ => 0), (1, fun _ => 0), (2, fun _ => 0)]

theorem initial_threeBlocks : Initial threeBlocks where
  nodup := List.nodup_nil
  empty := fun _ member => absurd member List.not_mem_nil
  unused := fun _ _ => rfl
  fresh_nodup := by decide
  size_pos := by decide
  size_lt := by decide

/-- The socket accepts nothing in three calls, and then one byte. -/
def lateNext (call : Nat) : SendOutcome := if call < 3 then .again else .accepted 1

/-- As many bytes as an `int` counts. -/
def fullBlock : List UInt8 := List.replicate 2147483647 0

theorem length_fullBlock : fullBlock.length = 2147483647 := List.length_replicate

theorem SendReaches.tail {pool : TSkBuffMng ι} {next : Nat → SendOutcome} {again : Bool}
    {sender after : Sender ι} {passed data : List UInt8} {ret : Int}
    (reaches : SendReaches pool next again ⟨sender, passed⟩) (short : data.length < 4294967296)
    (sends : sender.cacheTcpSendBuff data = some (ret, after)) (works : 0 ≤ ret) :
    SendReaches pool next again ⟨after, passed ++ data⟩ :=
  ⟨reaches.1, reaches.2.tail ⟨.tcpSendBuff data, short, ret, after, sends, works, rfl⟩⟩

/-- When there are 2^32 bytes in the cache, the next byte overtakes all of them. -/
theorem sendReaches_reordered : ∃ state : Passed Nat, SendReaches threeBlocks lateNext false state ∧
    state.sender.socket.sent = [7] ∧
    state.sender.content = fullBlock ++ fullBlock ++ [0, 0] ∧
    state.passed = fullBlock ++ fullBlock ++ [0, 0] ++ [7] ∧
    state.sender.socket.sent ++ state.sender.content ≠ state.passed := by
  let start : Passed Nat := Passed.start threeBlocks lateNext false
  have nonempty : fullBlock ≠ [] := fun empty => by
    have := congrArg List.length empty
    rw [length_fullBlock] at this
    cases this
  have stuck : Stuck start.sender [0, 1, 2] :=
    ⟨(Reaches.holds ⟨initial_threeBlocks, Relation.ReflTransGen.refl⟩ (by decide)).sound, rfl,
      Or.inl ⟨rfl, rfl⟩, rfl, rfl, rfl⟩
  obtain ⟨first, first_sends, first_socket, first_size, first_len, first_content, first_stuck⟩ :=
    stuck.cacheTcpSendBuff rfl nonempty (by rw [length_fullBlock]; decide)
      (by rw [length_fullBlock]; decide)
  rw [length_fullBlock] at first_len first_stuck
  replace first_len : first.cache.len = 2147483647 := first_len.trans (by decide)
  replace first_stuck := first_stuck rfl (by rw [first_len]; decide)
  obtain ⟨second, second_sends, second_socket, second_size, second_len, second_content,
      second_stuck⟩ := first_stuck.cacheTcpSendBuff (by rw [first_socket]; rfl) nonempty
      (by rw [length_fullBlock, first_size]; decide) (by rw [length_fullBlock]; decide)
  rw [length_fullBlock, first_len] at second_len
  replace second_len : second.cache.len = 4294967294 := second_len.trans (by decide)
  replace second_stuck := second_stuck (by rw [length_fullBlock, first_size]; rfl)
    (by rw [second_len]; decide)
  obtain ⟨third, third_sends, third_socket, -, third_len, third_content, -⟩ :=
    second_stuck.cacheTcpSendBuff (by rw [second_socket, first_socket]; rfl)
      (show [0, 0] ≠ [] by decide) (by rw [second_size, first_size]; decide) (by decide)
  rw [second_len] at third_len
  replace third_len : third.cache.len = 0 := third_len.trans (by decide)
  obtain ⟨last, last_sends, last_content, last_sent⟩ := cacheTcpSendBuff_one third_len
    (by rw [third_socket, second_socket, first_socket]; rfl) 7
  have sent_eq : last.socket.sent = [7] := by
    rw [last_sent, third_socket, second_socket, first_socket]
    rfl
  have content_eq : last.content = fullBlock ++ fullBlock ++ [0, 0] := by
    rw [last_content, third_content, second_content, first_content]
    rfl
  have short : fullBlock.length < 4294967296 := by
    rw [length_fullBlock]
    decide
  have first_reaches : SendReaches threeBlocks lateNext false ⟨first, [] ++ fullBlock⟩ :=
    SendReaches.tail ⟨initial_threeBlocks, Relation.ReflTransGen.refl⟩ short first_sends (le_refl 0)
  have third_reaches :=
    (first_reaches.tail short second_sends (le_refl 0)).tail (by decide) third_sends (le_refl 0)
  refine ⟨_, third_reaches.tail (by decide) last_sends Int.one_nonneg, sent_eq, content_eq, rfl, ?_⟩
  intro same
  rw [sent_eq] at same
  have heads := congrArg List.head? same
  rw [List.nil_append, fullBlock, List.replicate_succ] at heads
  cases heads

end TRWCache

end Spp
