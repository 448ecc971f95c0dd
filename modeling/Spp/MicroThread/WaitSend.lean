import Spp.Lib.Gather
import Spp.MicroThread.CacheSend

/-!
# Requests on a link, `WaitSend`

`CNetHandler::WaitSend` of `sync_frame/micro_thread/mt_net.cpp` sends a request on a link that
several handlers share.  What the socket does not accept at once waits in `_wait_send`, where
`OutputNotify` and the calls of other handlers send it; the handler is done when it has nothing left
to send.

`SendCacheTcp` counts what the socket accepts of each request; `SendCacheUdp` does not.
-/

namespace Spp

open Gather

/-- `RC_SEND_FAIL` -/
def rcSendFail : Int := -2

/-- The protocol of a link. -/
inductive NetProto where
  | udp
  | tcp
  deriving DecidableEq

/-- A call that sends, with what is left. -/
structure SendHandler where
  /-- `_req_data` and `_req_len`, the bytes that are left. -/
  reqData : List UInt8
  sendPos : Nat
  errNo : Int

/-- The part of `CSockLink` that sends, with its handlers. -/
structure SendLink (ι : Type) where
  protoType : NetProto
  waitSend : List ι
  handler : ι → SendHandler
  /-- The link is not destroyed. -/
  alive : Bool
  parked : ι → Bool
  asked : ι → List UInt8
  /-- What the socket has accepted of the request since the call began. -/
  sent : ι → List UInt8
  /-- What the call has returned. -/
  returned : ι → Option Int

namespace SendLink

variable {ι : Type} [DecidableEq ι]

/-- A handler changes. -/
def setHandler (link : SendLink ι) (key : ι) (handler : SendHandler) : SendLink ι :=
  { link with handler := Function.update link.handler key handler }

/-- `SkipSendPos` -/
def skipSendPos (link : SendLink ι) (key : ι) (len : Nat) : Nat × SendLink ι :=
  let handler := link.handler key
  let skipLen := if len ≥ handler.reqData.length then handler.reqData.length else len
  (skipLen, link.setHandler key { handler with
    reqData := handler.reqData.drop skipLen, sendPos := u32 (handler.sendPos + skipLen) })

/-- `SwitchToIdle` of a handler in `_wait_send` or in the idle list. -/
def switchToIdle (link : SendLink ι) (key : ι) : SendLink ι :=
  { link with waitSend := link.waitSend.erase key }

/-- The socket accepts the first bytes of some buffers. -/
def accept (link : SendLink ι) (buffers : List (ι × List UInt8)) (count : Nat) : SendLink ι :=
  { link with sent := fun key => link.sent key ++ share key buffers count }

/-- The loop of `SendCacheUdp`: what the function returns in the loop, or the number of calls of
`sendto` until then. -/
def udpLoop (next : Nat → SendOutcome) : (call : Nat) → (items : List ι) → SendLink ι →
    (Int ⊕ Nat) × SendLink ι
  | call, [], link => (.inr call, link)
  | call, item :: items, link =>
      if (link.handler item).reqData.length = 0 then
        udpLoop next call items (link.switchToIdle item)
      else
        match next call with
        | .again => (.inl 0, link)
        | .failed => (.inl (-2), link)
        | .accepted count =>
            udpLoop next (call + 1) items
              ((link.accept [(item, (link.handler item).reqData)] count).switchToIdle item)

/-- `SendCacheUdp` -/
def sendCacheUdp (link : SendLink ι) (next : Nat → SendOutcome) (own : Option (ι × List UInt8)) :
    Int × SendLink ι :=
  let queue := udpLoop next 0 link.waitSend link
  match queue.1 with
  | .inl ret => (ret, queue.2)
  | .inr call =>
      match own with
      | none => (0, queue.2)
      | some (key, data) =>
          if data.length = 0 then
            (0, queue.2)
          else
            match next call with
            | .again => (0, queue.2)
            | .failed => (-2, queue.2)
            | .accepted count => ((data.take count).length, queue.2.accept [(key, data)] count)

/-- The loop of `SendCacheTcp`. -/
def tcpLoop : (sendLeft : Nat) → (items : List ι) → SendLink ι → Nat × SendLink ι
  | sendLeft, [], link => (sendLeft, link)
  | sendLeft, item :: items, link =>
      let skipped := link.skipSendPos item sendLeft
      let link :=
        if (skipped.2.handler item).reqData.length = 0 then
          skipped.2.switchToIdle item
        else
          skipped.2
      if sendLeft - skipped.1 = 0 then
        (sendLeft - skipped.1, link)
      else
        tcpLoop (sendLeft - skipped.1) items link

/-- The bytes that the handlers still have. -/
def buffers (link : SendLink ι) (items : List ι) : List (ι × List UInt8) :=
  items.map fun item => (item, (link.handler item).reqData)

/-- The buffers that `writev` is given. -/
def iov (link : SendLink ι) (own : Option (ι × List UInt8)) : List (ι × List UInt8) :=
  let queue := link.buffers (link.waitSend.take 64)
  if queue.length < 64 then queue ++ own.toList else queue

/-- `SendCacheTcp`; `writev` accepts less than 2^31 bytes, and it fails if the length of a buffer is
negative as an `int32_t`. -/
def sendCacheTcp (link : SendLink ι) (next : Nat → SendOutcome) (own : Option (ι × List UInt8)) :
    Int × SendLink ι :=
  if (link.iov own).any fun buffer => 2147483648 ≤ buffer.2.length then
    (-1, link)
  else
    match next 0 with
    | .again => (0, link)
    | .failed => (-1, link)
    | .accepted count =>
        let bytes := min count (min (total (link.iov own)) 2147479552)
        let left := tcpLoop bytes link.waitSend (link.accept (link.iov own) bytes)
        (left.1, left.2)

/-- `SendData`, but for the epoll registration; without data it is the call of `OutputNotify`. -/
def sendData (link : SendLink ι) (next : Nat → SendOutcome) (own : Option (ι × List UInt8)) :
    Int × SendLink ι :=
  match link.protoType with
  | .udp => link.sendCacheUdp next own
  | .tcp => link.sendCacheTcp next own

/-- `WaitSend` returns. -/
def finish (link : SendLink ι) (key : ι) (code : Int) : SendLink ι :=
  { link with
    parked := Function.update link.parked key false
    returned := Function.update link.returned key (some code) }

/-- A call of `WaitSend` begins, with the request that `SendRecv` has set. -/
def request (link : SendLink ι) (key : ι) (data : List UInt8) : SendLink ι :=
  { link.setHandler key { link.handler key with reqData := data } with
    asked := Function.update link.asked key data
    sent := Function.update link.sent key []
    returned := Function.update link.returned key none }

/-- `WaitSend` until it returns or waits. -/
def beginWaitSend (link : SendLink ι) (key : ι) (data : List UInt8) (next : Nat → SendOutcome) :
    SendLink ι :=
  let sent := (link.request key data).sendData next (some (key, data))
  if sent.1 < 0 then
    sent.2.finish key rcSendFail
  else
    let link := (sent.2.skipSendPos key (u32 sent.1)).2
    if (link.handler key).reqData.length = 0 then
      link.finish key 0
    else
      { link with
        waitSend := link.waitSend ++ [key]
        parked := Function.update link.parked key true }

/-- The end of `WaitSend`, after the handler is woken or the time is over. -/
def endWaitSend (link : SendLink ι) (key : ι) : SendLink ι :=
  let handler := link.handler key
  (link.switchToIdle key).finish key
    (if handler.errNo ≠ 0 then handler.errNo
      else if handler.reqData.length = 0 then 0 else rcSendFail)

/-- `OutputNotify` of a link that is connected; a failure destroys the link, and `NotifyAll` tells
all handlers. -/
def outputNotify (link : SendLink ι) (next : Nat → SendOutcome) : SendLink ι :=
  let sent := link.sendData next none
  if sent.1 < 0 then
    { sent.2 with
      alive := false
      waitSend := []
      handler := fun key => { sent.2.handler key with errNo := rcSendFail } }
  else
    sent.2

/-- What happens on a link; `next` is what the calls of `sendto` or `writev` do. -/
inductive Event (ι : Type) where
  | waitSend (key : ι) (data : List UInt8) (next : Nat → SendOutcome)
  | outputNotify (next : Nat → SendOutcome)
  /-- A handler goes on, because it is woken or because its time is over. -/
  | resume (key : ι)

/-- An event, if it is possible: requests are not empty, and a handler has one call at a time. -/
def step (link : SendLink ι) : Event ι → Option (SendLink ι)
  | .waitSend key data next =>
      if link.alive ∧ link.parked key = false ∧ 0 < data.length ∧ data.length < 4294967296 then
        some (link.beginWaitSend key data next)
      else
        none
  | .outputNotify next => if link.alive then some (link.outputNotify next) else none
  | .resume key => if link.parked key then some (link.endWaitSend key) else none

/-- A new link. -/
def start (protoType : NetProto) : SendLink ι where
  protoType := protoType
  waitSend := []
  handler := fun _ => ⟨[], 0, 0⟩
  alive := true
  parked := fun _ => false
  asked := fun _ => []
  sent := fun _ => []
  returned := fun _ => none

/-! ## What a call of `SendData` does -/

/-- The calls that are not part of `SendData`. -/
structure SameCalls (link after : SendLink ι) : Prop where
  alive_eq : after.alive = link.alive
  asked_eq : after.asked = link.asked
  parked_eq : after.parked = link.parked
  returned_eq : after.returned = link.returned
  errNo_eq : ∀ key, (after.handler key).errNo = (link.handler key).errNo

omit [DecidableEq ι] in
theorem SameCalls.trans {link between after : SendLink ι} (first : SameCalls link between)
    (second : SameCalls between after) : SameCalls link after :=
  ⟨second.alive_eq.trans first.alive_eq, second.asked_eq.trans first.asked_eq,
    second.parked_eq.trans first.parked_eq, second.returned_eq.trans first.returned_eq,
    fun key => (second.errNo_eq key).trans (first.errNo_eq key)⟩

/-- The bytes that the socket accepts are those that the handlers do not have to send any more. -/
structure Sends (link : SendLink ι) (own : Option (ι × List UInt8)) (ret : Int)
    (after : SendLink ι) :
    Prop extends SameCalls link after where
  sublist : after.waitSend.Sublist link.waitSend
  whole : ∀ key, (∀ data, own ≠ some (key, data)) →
    after.sent key ++ (after.handler key).reqData = link.sent key ++ (link.handler key).reqData
  untouched : ∀ key, key ∉ link.waitSend → (∀ data, own ≠ some (key, data)) →
    after.sent key = link.sent key
  own_sent : ∀ key data, own = some (key, data) → after.handler key = link.handler key ∧
    (ret < 0 ∧ after.sent key = link.sent key ∨
      ∃ count ≤ data.length, ret = count ∧ after.sent key = link.sent key ++ data.take count)
  failed : ret < 0 → ∀ key, (after.handler key).reqData = (link.handler key).reqData

section SendData

variable {link : SendLink ι} {own : Option (ι × List UInt8)} {next : Nat → SendOutcome} {ret : Int}

theorem accept_sent (link : SendLink ι) (buffers : List (ι × List UInt8)) (count : Nat) (key : ι) :
    (link.accept buffers count).sent key = link.sent key ++ share key buffers count := rfl

omit [DecidableEq ι] in
theorem sends_nothing {waitSend : List ι} (sublist : waitSend.Sublist link.waitSend)
    (ret_nonpos : ret ≤ 0) : Sends link own ret { link with waitSend } where
  alive_eq := rfl
  asked_eq := rfl
  parked_eq := rfl
  returned_eq := rfl
  errNo_eq := fun _ => rfl
  sublist := sublist
  whole := fun _ _ => rfl
  untouched := fun _ _ _ => rfl
  own_sent := by
    intro key data _
    refine ⟨rfl, ?_⟩
    rcases ret_nonpos.lt_or_eq with negative | zero
    · exact Or.inl ⟨negative, rfl⟩
    · exact Or.inr ⟨0, Nat.zero_le _, zero, (List.append_nil _).symm⟩
  failed := fun _ _ => rfl

/-- No outcome of `sendto` is good for a handler in the queue. -/
def Refused (next : Nat → SendOutcome) : Prop := ∀ count, next 0 ≠ .accepted count

theorem udpLoop_refused (refused : Refused next) (items : List ι) (link : SendLink ι) :
    ∃ result waitSend, udpLoop next 0 items link = (result, { link with waitSend }) ∧
      waitSend.Sublist link.waitSend ∧ (result = .inr 0 ∨ ∃ ret ≤ 0, result = .inl ret) := by
  induction items generalizing link with
  | nil => exact ⟨.inr 0, link.waitSend, rfl, List.Sublist.refl _, Or.inl rfl⟩
  | cons item items induction =>
      rw [udpLoop]
      split
      · obtain ⟨result, waitSend, loops, sublist, results⟩ := induction (link.switchToIdle item)
        exact ⟨result, waitSend, loops, sublist.trans List.erase_sublist, results⟩
      · cases outcome : next 0 with
        | again => exact ⟨.inl 0, link.waitSend, rfl, List.Sublist.refl _,
          Or.inr ⟨0, le_refl 0, rfl⟩⟩
        | failed =>
            exact ⟨.inl (-2), link.waitSend, rfl, List.Sublist.refl _, Or.inr ⟨-2, by decide, rfl⟩⟩
        | accepted count => exact absurd outcome (refused count)

theorem sends_own (key : ι) (data : List UInt8) (count : Nat) :
    Sends link (some (key, data)) (data.take count).length (link.accept [(key, data)] count) := by
  have other_share : ∀ other, (∀ data', some (key, data) ≠ some (other, data')) →
      share other [(key, data)] count = [] := by
    intro other not_own
    refine share_of_not_mem (fun buffer member => ?_) count
    rw [List.mem_singleton.mp member]
    rintro rfl
    exact not_own data rfl
  refine ⟨⟨rfl, rfl, rfl, rfl, fun _ => rfl⟩, List.Sublist.refl _, fun other not_own => ?_,
    fun other _ not_own => ?_, fun other data' is_own => ⟨rfl, Or.inr ?_⟩, fun negative => ?_⟩
  · rw [accept_sent, other_share other not_own, List.append_nil]
    rfl
  · rw [accept_sent, other_share other not_own, List.append_nil]
  · cases is_own
    refine ⟨_, List.length_take_le' count data, rfl, ?_⟩
    rw [accept_sent, share, share, if_pos rfl, List.append_nil, List.length_take, ← List.take_take,
      List.take_length]
  · exact absurd negative (by omega)

theorem sendCacheUdp_sends (safe : link.waitSend = [] ∨ Refused next) :
    Sends link own (link.sendCacheUdp next own).1 (link.sendCacheUdp next own).2 := by
  obtain ⟨result, waitSend, loops, sublist, results⟩ : ∃ result waitSend,
      udpLoop next 0 link.waitSend link = (result, { link with waitSend }) ∧
        waitSend.Sublist link.waitSend ∧
        (result = .inr 0 ∧ (link.waitSend = [] ∨ Refused next) ∨ ∃ ret ≤ 0, result = .inl ret) := by
    rcases safe with empty | refused
    · rw [empty]
      exact ⟨.inr 0, link.waitSend, rfl, empty ▸ List.Sublist.refl _, Or.inl ⟨rfl, Or.inl rfl⟩⟩
    · obtain ⟨result, waitSend, loops, sublist, ends | ends⟩ :=
        udpLoop_refused refused link.waitSend link
      · exact ⟨result, waitSend, loops, sublist, Or.inl ⟨ends, Or.inr refused⟩⟩
      · exact ⟨result, waitSend, loops, sublist, Or.inr ends⟩
  simp only [sendCacheUdp, loops]
  rcases results with ⟨rfl, safe⟩ | ⟨ret, nonpos, rfl⟩
  · cases own with
    | none => exact sends_nothing sublist (le_refl 0)
    | some own =>
        obtain ⟨key, data⟩ := own
        by_cases no_data : data.length = 0
        · simp only [if_pos no_data]
          exact sends_nothing sublist (le_refl 0)
        · simp only [if_neg no_data]
          cases outcome : next 0 with
          | again => exact sends_nothing sublist (le_refl 0)
          | failed => exact sends_nothing sublist (show (-2 : Int) ≤ 0 by decide)
          | accepted count =>
              rcases safe with empty | refused
              · rw [empty] at sublist
                cases List.sublist_nil.mp sublist
                rw [← empty]
                exact sends_own key data count
              · exact absurd outcome (refused count)
  · exact sends_nothing sublist nonpos

/-- What the second loop of `SendCacheTcp` does with the bytes that the socket has accepted. -/
structure Skips (link : SendLink ι) (items : List ι) (bytes left : Nat) (after : SendLink ι) : Prop
    extends SameCalls link after where
  left_eq : left = bytes - total (link.buffers items)
  reqData_eq : ∀ key, (link.handler key).reqData =
    share key (link.buffers items) bytes ++ (after.handler key).reqData
  sublist : after.waitSend.Sublist link.waitSend
  others : ∀ key, key ∉ items → after.handler key = link.handler key
  sent_eq : after.sent = link.sent

theorem skipSendPos_eq (link : SendLink ι) (key : ι) (len : Nat) :
    (link.skipSendPos key len).1 = min len (link.handler key).reqData.length := by
  rw [skipSendPos]
  dsimp only
  split <;> omega

theorem skipSendPos_reqData (link : SendLink ι) (key : ι) (len : Nat) :
    ((link.skipSendPos key len).2.handler key).reqData =
      (link.handler key).reqData.drop (link.skipSendPos key len).1 := by
  simp only [skipSendPos, setHandler, Function.update_self]

theorem skipSendPos_errNo (link : SendLink ι) (key : ι) (len : Nat) :
    ((link.skipSendPos key len).2.handler key).errNo = (link.handler key).errNo := by
  simp only [skipSendPos, setHandler, Function.update_self]

/-- A handler skips its bytes, and it leaves the queue if it has none left. -/
theorem exists_skipped (link : SendLink ι) (item : ι) (bytes : Nat) :
    ∃ skipped : SendLink ι, skipped.waitSend.Sublist link.waitSend ∧
      (if ((link.skipSendPos item bytes).2.handler item).reqData.length = 0 then
        (link.skipSendPos item bytes).2.switchToIdle item else (link.skipSendPos item bytes).2) =
          skipped ∧
      SameCalls link skipped ∧ skipped.sent = link.sent ∧
      (∀ key, key ≠ item → skipped.handler key = link.handler key) ∧
      ∀ key, (link.handler key).reqData =
        (if item = key then (link.handler item).reqData.take bytes else []) ++
          (skipped.handler key).reqData := by
  have others : ∀ key, key ≠ item →
      (link.skipSendPos item bytes).2.handler key = link.handler key :=
    fun key ne => Function.update_of_ne ne _ _
  have errNo_eq : ∀ key, ((link.skipSendPos item bytes).2.handler key).errNo =
      (link.handler key).errNo := by
    intro key
    by_cases same : key = item
    · rw [same, skipSendPos_errNo]
    · rw [others key same]
  have reqData_eq : ∀ key, (link.handler key).reqData =
      (if item = key then (link.handler item).reqData.take bytes else []) ++
        ((link.skipSendPos item bytes).2.handler key).reqData := by
    intro key
    by_cases same : item = key
    · rw [if_pos same, ← same, skipSendPos_reqData, skipSendPos_eq]
      rcases Nat.le_total bytes (link.handler item).reqData.length with le | ge
      · rw [Nat.min_eq_left le, List.take_append_drop]
      · rw [Nat.min_eq_right ge, List.drop_length, List.append_nil, List.take_of_length_le ge]
    · rw [if_neg same, others key (Ne.symm same), List.nil_append]
  split
  · exact ⟨(link.skipSendPos item bytes).2.switchToIdle item, List.erase_sublist, rfl,
      ⟨rfl, rfl, rfl, rfl, errNo_eq⟩, rfl, others, reqData_eq⟩
  · exact ⟨(link.skipSendPos item bytes).2, List.Sublist.refl _, rfl,
      ⟨rfl, rfl, rfl, rfl, errNo_eq⟩,
      rfl, others, reqData_eq⟩

theorem tcpLoop_skips {items : List ι} (nodup : items.Nodup) (bytes : Nat) (link : SendLink ι) :
    Skips link items bytes (tcpLoop bytes items link).1 (tcpLoop bytes items link).2 := by
  induction items generalizing bytes link with
  | nil =>
      exact ⟨⟨rfl, rfl, rfl, rfl, fun _ => rfl⟩, rfl, fun _ => rfl, List.Sublist.refl _,
        fun _ _ => rfl, rfl⟩
  | cons item items induction =>
      obtain ⟨not_mem, nodup⟩ := List.nodup_cons.mp nodup
      obtain ⟨skipped, sublist, step_eq, same, sent_eq, others, reqData_eq⟩ :=
        exists_skipped link item bytes
      have buffers_eq : skipped.buffers items = link.buffers items := by
        refine List.map_congr_left fun other member => ?_
        rw [others other]
        rintro rfl
        exact not_mem member
      have share_eq : ∀ key, share key (link.buffers (item :: items)) bytes =
          (if item = key then (link.handler item).reqData.take bytes else []) ++
            share key (link.buffers items) (bytes - (link.handler item).reqData.length) :=
        fun key => rfl
      have total_eq : total (link.buffers (item :: items)) =
          (link.handler item).reqData.length + total (link.buffers items) := total_cons ..
      rw [tcpLoop]
      simp only [step_eq, skipSendPos_eq]
      by_cases none_left : bytes - min bytes (link.handler item).reqData.length = 0
      · rw [if_pos none_left]
        refine ⟨same, ?_, fun key => ?_, sublist, fun key not_mem => ?_, sent_eq⟩
        · rw [total_eq]
          omega
        · have no_rest : bytes - (link.handler item).reqData.length = 0 := by omega
          rw [share_eq, no_rest, share_zero, List.append_nil]
          exact reqData_eq key
        · exact others key (List.ne_of_not_mem_cons not_mem)
      · rw [if_neg none_left]
        have left_eq : bytes - min bytes (link.handler item).reqData.length =
            bytes - (link.handler item).reqData.length := by omega
        rw [left_eq]
        have rest := induction nodup (bytes - (link.handler item).reqData.length) skipped
        refine ⟨same.trans rest.toSameCalls, ?_, fun key => ?_, rest.sublist.trans sublist,
          fun key not_mem => ?_, rest.sent_eq.trans sent_eq⟩
        · rw [rest.left_eq, buffers_eq, total_eq, Nat.sub_sub]
        · rw [reqData_eq key, rest.reqData_eq key, buffers_eq, share_eq, List.append_assoc]
        · rw [rest.others key (List.not_mem_of_not_mem_cons not_mem),
            others key (List.ne_of_not_mem_cons not_mem)]

omit [DecidableEq ι] in
theorem buffers_owner {items : List ι} {buffer : ι × List UInt8}
    (member : buffer ∈ link.buffers items) :
    buffer.1 ∈ items := by
  obtain ⟨item, is_item, rfl⟩ := List.mem_map.mp member
  exact is_item

omit [DecidableEq ι] in
theorem iov_of_lt (short : link.waitSend.length < 64) :
    link.iov own = link.buffers link.waitSend ++ own.toList := by
  have take_eq : link.waitSend.take 64 = link.waitSend := List.take_of_length_le short.le
  rw [iov, take_eq]
  exact if_pos (by rwa [buffers, List.length_map])

omit [DecidableEq ι] in
theorem iov_of_le (long : 64 ≤ link.waitSend.length) :
    link.iov own = link.buffers (link.waitSend.take 64) := by
  rw [iov]
  exact if_neg (by rw [buffers, List.length_map, List.length_take]; omega)

omit [DecidableEq ι] in
theorem buffers_split (link : SendLink ι) : link.buffers link.waitSend =
    link.buffers (link.waitSend.take 64) ++ link.buffers (link.waitSend.drop 64) := by
  rw [buffers, buffers, buffers, ← List.map_append, List.take_append_drop]

theorem share_iov {key : ι} {bytes : Nat} (not_own : ∀ data, own ≠ some (key, data))
    (le : bytes ≤ total (link.iov own)) :
    share key (link.iov own) bytes = share key (link.buffers link.waitSend) bytes := by
  rcases Nat.lt_or_ge link.waitSend.length 64 with short | long
  · rw [iov_of_lt short, share_append, @share_of_not_mem _ _ _ key own.toList, List.append_nil]
    rintro ⟨other, data⟩ member rfl
    exact not_own data (Option.mem_toList.mp member)
  · rw [iov_of_le long] at le ⊢
    rw [buffers_split, share_append, Nat.sub_eq_zero_of_le le, share_zero, List.append_nil]

theorem share_iov_own {key : ι} {data : List UInt8} {bytes : Nat} (is_own : own = some (key, data))
    (not_mem : key ∉ link.waitSend) (le : bytes ≤ total (link.iov own)) :
    bytes - total (link.buffers link.waitSend) ≤ data.length ∧
      share key (link.iov own) bytes = data.take (bytes - total (link.buffers link.waitSend)) := by
  have none_of : ∀ items : List ι, items.Sublist link.waitSend → ∀ count,
      share key (link.buffers items) count = [] := by
    intro items sublist count
    refine share_of_not_mem (fun buffer member => ?_) count
    rintro rfl
    exact not_mem (sublist.subset (buffers_owner member))
  rcases Nat.lt_or_ge link.waitSend.length 64 with short | long
  · rw [iov_of_lt short, is_own] at le ⊢
    rw [total_append] at le
    rw [share_append, none_of _ (List.Sublist.refl _), List.nil_append]
    have own_total : total (some (key, data)).toList = data.length := by
      rw [Option.toList_some, total_cons]
      rfl
    refine ⟨by omega, ?_⟩
    rw [Option.toList_some, share, share, if_pos rfl, List.append_nil]
  · rw [iov_of_le long] at le ⊢
    have none_left : bytes - total (link.buffers link.waitSend) = 0 := by
      rw [buffers_split, total_append]
      omega
    rw [none_left, none_of _ (List.take_sublist ..), List.take_zero]
    exact ⟨Nat.zero_le _, rfl⟩

theorem sendCacheTcp_sends (nodup : link.waitSend.Nodup)
    (own_free : ∀ key data, own = some (key, data) → key ∉ link.waitSend) :
    Sends link own (link.sendCacheTcp next own).1 (link.sendCacheTcp next own).2 := by
  rw [sendCacheTcp]
  split
  · exact sends_nothing (List.Sublist.refl _) (show (-1 : Int) ≤ 0 by decide)
  · cases outcome : next 0 with
    | again => exact sends_nothing (List.Sublist.refl _) (le_refl 0)
    | failed => exact sends_nothing (List.Sublist.refl _) (show (-1 : Int) ≤ 0 by decide)
    | accepted count =>
        dsimp only
        have le : min count (min (total (link.iov own)) 2147479552) ≤ total (link.iov own) := by
          omega
        generalize min count (min (total (link.iov own)) 2147479552) = bytes at le ⊢
        have skips := tcpLoop_skips nodup bytes (link.accept (link.iov own) bytes)
        have reqData_eq : ∀ key, (link.handler key).reqData =
          share key (link.buffers link.waitSend) bytes ++ _ := skips.reqData_eq
        have left_eq : _ = bytes - total (link.buffers link.waitSend) := skips.left_eq
        have accepts : SameCalls link (link.accept (link.iov own) bytes) :=
          ⟨rfl, rfl, rfl, rfl, fun _ => rfl⟩
        refine ⟨accepts.trans skips.toSameCalls, skips.sublist, fun key not_own => ?_,
          fun key not_mem not_own => ?_, fun key data is_own => ?_,
          fun negative => absurd negative (by omega)⟩
        · rw [skips.sent_eq, accept_sent, share_iov not_own le, List.append_assoc, ← reqData_eq]
        · rw [skips.sent_eq, accept_sent, share_iov not_own le, share_of_not_mem, List.append_nil]
          rintro buffer member rfl
          exact not_mem (buffers_owner member)
        · have not_mem := own_free key data is_own
          obtain ⟨le_length, share_eq⟩ := share_iov_own is_own not_mem le
          refine ⟨skips.others key not_mem, Or.inr ⟨_, le_length, ?_, ?_⟩⟩
          · rw [left_eq]
          · rw [skips.sent_eq, accept_sent, share_eq]

/-- A call of `SendData` on a UDP link finds no handler in the queue, or the socket refuses. -/
def Quiet (link : SendLink ι) (next : Nat → SendOutcome) : Prop :=
  link.protoType = .udp → link.waitSend = [] ∨ Refused next

theorem sendData_sends (quiet : link.Quiet next) (nodup : link.waitSend.Nodup)
    (own_free : ∀ key data, own = some (key, data) → key ∉ link.waitSend) :
    Sends link own (link.sendData next own).1 (link.sendData next own).2 := by
  rw [sendData]
  cases proto : link.protoType with
  | udp => exact sendCacheUdp_sends (quiet proto)
  | tcp => exact sendCacheTcp_sends nodup own_free

end SendData

end SendLink

end Spp
