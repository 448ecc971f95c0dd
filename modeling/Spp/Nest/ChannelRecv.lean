import Spp.Nest.Channel
import Spp.Nest.CommuHead

/-!
# Input of a channel

`TNestChannel::Recv` and `RecvCache` of `nest/comm/nest_channel.cpp`, with `TCommuDisp::DoRecvCache`
of `nest/comm/nest_commu.cpp`.  `Recv` puts the bytes of the socket into the read cache `_r`, and
`RecvCache` handles one message of the cache or all of them.

`TCommuDisp` does not have a `DoRecv` of its own, so that `Recv` handles nothing.  Handling a
message is one entry of a log.  The signed sum of `DoRecvCache` may overflow (`none`).
-/

namespace Spp

/-- A message that is handled, by `HandleControl` or by `HandleService` and `DoRecvFinished`. -/
structure HandledMsg where
  head : TNetCommuHead
  body : List UInt8

/-- What `DoRecvCache` gives. -/
structure Processed where
  ret : Int
  handled : List HandledMsg

/-- The message that `DoRecvCache` handles after `CheckMsg`. -/
def CheckedMsg.handle (checked : CheckedMsg) (bytes : List UInt8) : HandledMsg :=
  ⟨checked.head, (bytes.take checked.ret.toNat).drop checked.head.headLen.toNat⟩

/-- The loop of `DoRecvCache` with the bytes that are left. -/
def doRecvLoop (block : Bool) : Nat → List UInt8 → Int → List HandledMsg → Option Processed
  | 0, _, _, _ => none
  | rounds + 1, bytes, processLen, handled =>
      let checked := checkMsg bytes
      if checked.ret < 0 then
        some ⟨checked.ret, handled⟩
      else if checked.ret = 0 then
        some ⟨processLen, handled⟩
      else
        (int32 (processLen + checked.ret)).bind fun processLen =>
          let handled := handled ++ [checked.handle bytes]
          if block then
            doRecvLoop block rounds (bytes.drop checked.ret.toNat) processLen handled
          else
            some ⟨processLen, handled⟩

/-- `DoRecvCache`; every round consumes a byte. -/
def doRecvCache (bytes : List UInt8) (block : Bool) : Option Processed :=
  doRecvLoop block (bytes.length + 1) bytes 0 []

/-- The cache after a call, and what was handled. -/
structure ChannelInput where
  ret : Int
  r : CRawCache
  handled : List HandledMsg

/-- What a read from the socket does. -/
inductive ReadOutcome where
  | received (bytes : List UInt8)
  | closed
  | failed

namespace CRawCache

/-- The end of `RecvCache`.  `process_len` is unsigned, so that an error is never found; it is taken
for a large number of bytes to skip. -/
def skipProcessed (r : CRawCache) (processed : Processed) : ChannelInput :=
  let processLen := u32 processed.ret
  ⟨i32 processLen, r.skip processLen, processed.handled⟩

/-- `RecvCache` -/
def recvCache (r : CRawCache) (block : Bool) : Option ChannelInput :=
  if r.dataLen = 0 then
    some ⟨0, r, []⟩
  else do
    let bytes ← r.data
    let processed ← doRecvCache bytes block
    return r.skipProcessed processed

/-- `Recv` -/
def recv (r : CRawCache) (fresh : Fresh) : ReadOutcome → Option ChannelInput
  | .received bytes => do
      let r ← r.appendUncaught fresh bytes
      let _ ← r.data
      return ⟨0, r.skip 0, []⟩
  | .closed => do
      let input ← r.recvCache true
      return { input with ret := -102 }
  | .failed => some ⟨-103, r, []⟩

end CRawCache

/-! ## Handling the messages of a stream -/

/-- The message as it is to be handled. -/
def NestSent.handled (message : NestSent) : HandledMsg := ⟨message.head, message.body⟩

variable {message : NestSent} {bytes : List UInt8} {messages : List NestSent}

theorem NestSent.handle_eq (rest : List UInt8) :
    CheckedMsg.handle ⟨message.bytes.length, message.head⟩ (message.bytes ++ rest) =
      message.handled := by
  have headLen_eq : message.head.headLen.toNat = message.head.hton.bytes.length := by
    rw [TNetCommuHead.length_bytes]
    rfl
  show HandledMsg.mk _ (((message.bytes ++ rest).take message.bytes.length).drop _) = _
  rw [List.take_left, headLen_eq, message.bytes_eq, List.drop_left]
  rfl

theorem NestSent.bytes_pos (message : NestSent) : 0 < message.bytes.length := by
  rw [message.length_bytes]
  exact Nat.lt_add_right _ (by decide)

theorem doRecvLoop_whole (block : Bool) (rounds : Nat) (fits : message.Fits) (rest : List UInt8)
    (processLen : Int) (handled : List HandledMsg) :
    doRecvLoop block (rounds + 1) (message.bytes ++ rest) processLen handled =
      (int32 (processLen + message.bytes.length)).bind fun processLen =>
        if block then doRecvLoop block rounds rest processLen (handled ++ [message.handled])
        else some ⟨processLen, handled ++ [message.handled]⟩ := by
  have positive := message.bytes_pos
  rw [doRecvLoop, checkMsg_whole fits]
  dsimp only
  rw [if_neg (by omega), if_neg (by omega), message.handle_eq, Int.toNat_natCast, List.drop_left]

theorem doRecvLoop_part (block : Bool) (rounds : Nat) (part : (checkMsg bytes).ret = 0)
    (processLen : Int) (handled : List HandledMsg) :
    doRecvLoop block (rounds + 1) bytes processLen handled = some ⟨processLen, handled⟩ := by
  rw [doRecvLoop, part]
  rfl

/-- What the loop has to do with the front of a stream of messages. -/
structure LoopHandles (messages : List NestSent) (bytes : List UInt8) (processLen : Nat)
    (handled : List HandledMsg) (processed : Processed) (whole : List NestSent) : Prop where
  taken : whole <+: messages
  handled_eq : processed.handled = handled ++ whole.map NestSent.handled
  ret_eq : processed.ret = (processLen + (whole.flatMap NestSent.bytes).length : Nat)
  front : whole.flatMap NestSent.bytes <+: bytes

/-- The front of a stream has the first message or a proper part of it. -/
theorem whole_or_part {α : Type*} {bytes coming message rest : List α}
    (stream : bytes ++ coming = message ++ rest) :
    (∃ behind, bytes = message ++ behind ∧ behind ++ coming = rest) ∨
      ∃ missing, bytes ++ missing = message ∧ missing ≠ [] ∧ coming ≠ [] := by
  obtain ⟨missing, message_eq, coming_eq⟩ | ⟨behind, bytes_eq, rest_eq⟩ :=
    List.append_eq_append_iff.1 stream
  · by_cases none_missing : missing = []
    · rw [none_missing, List.append_nil] at message_eq
      rw [none_missing, List.nil_append] at coming_eq
      exact Or.inl ⟨[], by rw [message_eq, List.append_nil], coming_eq⟩
    · refine Or.inr ⟨missing, message_eq.symm, none_missing, ?_⟩
      rw [coming_eq]
      exact List.append_ne_nil_of_left_ne_nil none_missing rest
  · exact Or.inl ⟨behind, bytes_eq, rest_eq.symm⟩

theorem LoopHandles.nil (messages : List NestSent) (bytes : List UInt8) (processLen : Nat)
    (handled : List HandledMsg) :
    LoopHandles messages bytes processLen handled ⟨processLen, handled⟩ [] where
  taken := List.nil_prefix
  handled_eq := (List.append_nil _).symm
  ret_eq := rfl
  front := List.nil_prefix

/-- The loop with a whole message in front of what it does afterwards. -/
theorem LoopHandles.cons {whole : List NestSent} {processLen : Nat} {handled : List HandledMsg}
    {processed : Processed}
    (handles : LoopHandles messages bytes (processLen + message.bytes.length)
      (handled ++ [message.handled]) processed whole) :
    LoopHandles (message :: messages) (message.bytes ++ bytes) processLen handled processed
      (message :: whole) where
  taken := List.cons_prefix_cons.2 ⟨rfl, handles.taken⟩
  handled_eq := by rw [handles.handled_eq, List.append_assoc]; rfl
  ret_eq := by rw [handles.ret_eq, List.flatMap_cons, List.length_append, Nat.add_assoc]
  front := (List.prefix_append_right_inj _).2 handles.front

/-- The loop handles the first message, or all of them, of those whose bytes are there. -/
theorem doRecvLoop_eq (block : Bool) (fits : ∀ message ∈ messages, message.Fits)
    {coming : List UInt8} (stream : bytes ++ coming = messages.flatMap NestSent.bytes)
    {rounds processLen : Nat} (enough : bytes.length < rounds)
    (small : processLen + bytes.length < 2147483648) (handled : List HandledMsg) :
    ∃ processed whole, doRecvLoop block rounds bytes processLen handled = some processed ∧
      LoopHandles messages bytes processLen handled processed whole ∧
      (coming = [] → whole = if block then messages else messages.take 1) := by
  induction messages generalizing bytes rounds processLen handled with
  | nil =>
      obtain ⟨rfl, rfl⟩ := List.append_eq_nil_iff.1 stream
      obtain ⟨rounds, rfl⟩ := Nat.exists_eq_add_of_lt enough
      exact ⟨_, [], doRecvLoop_part block _ rfl _ _, LoopHandles.nil _ _ _ _, fun _ =>
        by rw [List.take_nil, ite_self]⟩
  | cons message messages induction =>
      have message_fits := fits message List.mem_cons_self
      obtain ⟨rounds, rfl⟩ := Nat.exists_eq_succ_of_ne_zero (Nat.ne_zero_of_lt enough)
      rw [List.flatMap_cons] at stream
      obtain ⟨behind, rfl, rest_eq⟩ | ⟨missing, message_eq, missing_some, coming_some⟩ :=
        whole_or_part stream
      · have positive := message.bytes_pos
        rw [List.length_append] at enough small
        have sum_eq : int32 ((processLen : Int) + message.bytes.length) =
            some ((processLen + message.bytes.length : Nat) : Int) := by
          rw [← Nat.cast_add, int32_of_nat (by omega)]
        rw [doRecvLoop_whole block rounds message_fits, sum_eq, Option.bind_some]
        cases block with
        | false => exact ⟨_, [message], rfl, (LoopHandles.nil _ _ _ _).cons, fun _ => rfl⟩
        | true =>
            obtain ⟨processed, whole, eq, handles, all⟩ := induction
              (fun other member => fits other (List.mem_cons_of_mem _ member)) rest_eq
              (show behind.length < rounds by omega)
              (show processLen + message.bytes.length + behind.length < 2147483648 by omega)
              (handled ++ [message.handled])
            exact ⟨processed, message :: whole, eq, handles.cons, fun ended =>
              congrArg (message :: ·) (all ended)⟩
      · have part := checkMsg_part message_fits message_eq missing_some
        exact ⟨_, [], doRecvLoop_part block _ part _ _, LoopHandles.nil _ _ _ _, fun ended =>
          absurd ended coming_some⟩

theorem flatMap_bytes_eq_nil (empty : messages.flatMap NestSent.bytes = []) : messages = [] := by
  cases messages with
  | nil => rfl
  | cons message messages =>
      rw [List.flatMap_cons, List.append_eq_nil_iff] at empty
      exact absurd (List.length_eq_zero_iff.2 empty.1) (Nat.ne_of_gt message.bytes_pos)

namespace CRawCache

variable {r : CRawCache}

/-- What `RecvCache` has to do with the front of a stream of messages. -/
structure CacheHandles (r : CRawCache) (messages : List NestSent) (input : ChannelInput)
    (whole : List NestSent) : Prop where
  ret_nonneg : 0 ≤ input.ret
  taken : whole <+: messages
  handled_eq : input.handled = whole.map NestSent.handled
  content_eq : whole.flatMap NestSent.bytes ++ input.r.content = r.content
  modest : input.r.Modest

theorem skipProcessed_eq (r : CRawCache) {processLen : Nat} (small : processLen < 2147483648)
    (handled : List HandledMsg) : r.skipProcessed ⟨processLen, handled⟩ =
      ⟨processLen, r.skip processLen, handled⟩ := by
  have len_eq : u32 (processLen : Int) = processLen := by
    unfold u32
    omega
  dsimp only [skipProcessed]
  rw [len_eq, i32_of_lt small]

theorem recvCache_eq (modest : r.Modest) (few : r.content.length ≤ 1431655765) (block : Bool)
    {messages : List NestSent} (fits : ∀ message ∈ messages, message.Fits) {coming : List UInt8}
    (stream : r.content ++ coming = messages.flatMap NestSent.bytes) :
    ∃ input whole, r.recvCache block = some input ∧ CacheHandles r messages input whole ∧
      (coming = [] → whole = if block then messages else messages.take 1) := by
  have length_eq := modest.length_content
  unfold recvCache
  split
  · rename_i empty
    have content_eq := List.length_eq_zero_iff.1 (length_eq.trans empty)
    refine ⟨_, [], rfl, ⟨le_refl _, List.nil_prefix, rfl, rfl, modest⟩, fun ended => ?_⟩
    rw [content_eq, ended] at stream
    rw [flatMap_bytes_eq_nil stream.symm, List.take_nil, ite_self]
  · obtain ⟨⟨ret, handled⟩, whole, eq, handles, all⟩ := doRecvLoop_eq block fits stream
      (Nat.lt_succ_self _) (show 0 + r.content.length < 2147483648 by omega) []
    obtain ⟨rest, rest_eq⟩ := handles.front
    have ret_eq : ret = ((whole.flatMap NestSent.bytes).length : Nat) := by
      have := handles.ret_eq
      rwa [Nat.zero_add] at this
    have whole_le : (whole.flatMap NestSent.bytes).length < 2147483648 := by
      rw [← rest_eq, List.length_append] at few
      omega
    subst ret_eq
    refine ⟨_, whole, Option.bind_eq_some_iff.2 ⟨_, modest.data_eq, Option.bind_eq_some_iff.2
      ⟨_, eq, congrArg some (skipProcessed_eq r whole_le handled)⟩⟩,
      ⟨Int.natCast_nonneg _, handles.taken, handles.handled_eq, ?_, modest.skip _⟩, all⟩
    show _ ++ (r.skip _).content = _
    rw [content_skip modest.toSound, ← rest_eq, List.drop_left]

theorem recv_eq (modest : r.Modest) (fresh : Fresh) {bytes : List UInt8}
    (few : r.content.length + bytes.length ≤ 1431655765) :
    Returns (r.recv fresh (.received bytes)) (fresh = none) fun input =>
      input.ret = 0 ∧ input.handled = [] ∧ input.r.Modest ∧
        input.r.content = r.content ++ bytes := by
  refine (modest.appendUncaught fresh few).bind ?_
  rintro after ⟨after_modest, content_eq⟩
  rw [after_modest.data_eq]
  refine Returns.pure ⟨rfl, rfl, after_modest.skip 0, ?_⟩
  show (after.skip 0).content = _
  rw [content_skip after_modest.toSound, List.drop_zero, content_eq]

end CRawCache

/-! ## Runs -/

/-- The cache, the bytes to come, and the messages that were handled. -/
structure ChannelRun where
  r : CRawCache
  coming : List UInt8
  handled : List HandledMsg

/-- The calls that receive. -/
inductive RecvCall where
  | recv (count : Nat) (fresh : Fresh)
  | recvCache (block : Bool)

namespace RecvCall

/-- The number of bytes that the call takes from the socket. -/
def count : RecvCall → Nat
  | .recv count _ => count
  | .recvCache _ => 0

/-- A call and what it handles. -/
def perform (state : ChannelRun) : RecvCall → Option ChannelInput
  | .recv count fresh => state.r.recv fresh (.received (state.coming.take count))
  | .recvCache block => state.r.recvCache block

/-- `recv` gives some of the bytes that come, and at most those for which there is room. -/
def Possible (state : ChannelRun) : RecvCall → Prop
  | .recv count _ => 0 < count ∧ count ≤ 1048576 ∧ count ≤ state.coming.length
  | .recvCache _ => True

/-- The call is possible, and there are at most 2^32 / 3 bytes in the read cache and in the call. -/
def Safe (state : ChannelRun) (call : RecvCall) : Prop :=
  call.Possible state ∧ state.r.content.length + call.count ≤ 1431655765

/-- The allocation fails. -/
def OutOfMemory : RecvCall → Prop
  | .recv _ fresh => fresh = none
  | .recvCache _ => False

end RecvCall

namespace ChannelRun

/-- A connected channel to which some messages are sent. -/
def start (messages : List NestSent) : ChannelRun :=
  ⟨.init, messages.flatMap NestSent.bytes, []⟩

/-- A call that returns; the bytes it has read are gone. -/
def Steps (before after : ChannelRun) (call : RecvCall) : Prop :=
  ∃ input, call.perform before = some input ∧ after =
    ⟨input.r, before.coming.drop call.count, before.handled ++ input.handled⟩

/-- Runs of calls while these messages arrive. -/
def Reaches (messages : List NestSent) (state : ChannelRun) : Prop :=
  Relation.ReflTransGen (fun before after : ChannelRun => ∃ call : RecvCall,
    call.Possible before ∧ before.Steps after call) (start messages) state

/-- Runs that meet the condition. -/
def SafeReaches (messages : List NestSent) (state : ChannelRun) : Prop :=
  Relation.ReflTransGen (fun before after : ChannelRun => ∃ call : RecvCall,
    call.Safe before ∧ before.Steps after call) (start messages) state

/-- The first messages have been handled, and the bytes of the others are in the read cache or are
still to come. -/
def InStream (messages : List NestSent) (state : ChannelRun) : Prop :=
  ∃ rest, messages.map NestSent.handled = state.handled ++ rest.map NestSent.handled ∧
    rest <:+ messages ∧ state.r.content ++ state.coming = rest.flatMap NestSent.bytes

/-- What is to come is the rest of the messages. -/
structure Holds (messages : List NestSent) (state : ChannelRun) : Prop where
  modest : state.r.Modest
  few : state.r.content.length ≤ 1431655765
  inStream : state.InStream messages

variable {r : CRawCache} {bytes : List UInt8}

theorem holds_start (messages : List NestSent) : Holds messages (start messages) where
  modest := CRawCache.modest_init
  few := Nat.zero_le _
  inStream := ⟨messages, rfl, List.suffix_refl _, rfl⟩

variable {messages : List NestSent} {state : ChannelRun}

/-- What a call is to do. -/
structure CallHandles (messages : List NestSent) (state : ChannelRun) (call : RecvCall)
    (input : ChannelInput) : Prop where
  ret_nonneg : 0 ≤ input.ret
  holds : Holds messages
    ⟨input.r, state.coming.drop call.count, state.handled ++ input.handled⟩
  /-- `RecvCache` handles all messages at the end of the stream, or the next one. -/
  all : ∀ block, call = .recvCache block → state.coming = [] →
    state.handled ++ input.handled = if block then messages.map NestSent.handled else
      (messages.map NestSent.handled).take (state.handled.length + 1)

theorem Holds.recv (holds : Holds messages state) {count : Nat} (fresh : Fresh)
    (few : state.r.content.length + count ≤ 1431655765) :
    Returns (RecvCall.perform state (.recv count fresh)) (fresh = none)
      (CallHandles messages state (.recv count fresh)) := by
  have taken := List.length_take_le count state.coming
  refine (CRawCache.recv_eq holds.modest fresh (by omega)).mono ?_ id
  rintro ⟨ret, r, handled⟩ ⟨rfl, rfl, modest, content_eq⟩
  obtain ⟨rest, handled_eq, suffix, stream⟩ := holds.inStream
  change r.content = _ at content_eq
  refine ⟨le_refl _, ⟨modest, ?_, rest, ?_, suffix, ?_⟩, fun block same => nomatch same⟩
  · show r.content.length ≤ _
    rw [content_eq, List.length_append]
    omega
  · show _ = (state.handled ++ []) ++ _
    rw [List.append_nil, handled_eq]
  · show r.content ++ state.coming.drop count = _
    rw [content_eq, List.append_assoc, List.take_append_drop, stream]

theorem Holds.recvCache (fits : ∀ message ∈ messages, message.Fits) (holds : Holds messages state)
    (block : Bool) :
    Returns (RecvCall.perform state (.recvCache block)) False
      (CallHandles messages state (.recvCache block)) := by
  obtain ⟨rest, handled_eq, suffix, stream⟩ := holds.inStream
  obtain ⟨⟨ret, r, handled⟩, whole, eq, handles, all⟩ := CRawCache.recvCache_eq holds.modest
    holds.few block (fun message member => fits message (suffix.subset member)) stream
  obtain ⟨later, rfl⟩ := handles.taken
  have content_eq : whole.flatMap NestSent.bytes ++ r.content = state.r.content :=
    handles.content_eq
  have log_eq : handled = whole.map NestSent.handled := handles.handled_eq
  refine Or.inl ⟨_, eq, handles.ret_nonneg, ⟨handles.modest, ?_, later, ?_,
    (List.suffix_append _ _).trans suffix, ?_⟩, ?_⟩
  · have few := holds.few
    rw [← content_eq, List.length_append] at few
    exact (Nat.le_add_left _ _).trans few
  · show _ = (state.handled ++ handled) ++ _
    rw [handled_eq, log_eq, List.map_append, List.append_assoc]
  · show r.content ++ state.coming = _
    rw [← content_eq, List.append_assoc, List.flatMap_append, List.append_cancel_left_eq] at stream
    exact stream
  · rintro _ ⟨⟩ ended
    have all_eq := log_eq.trans (congrArg (List.map NestSent.handled) (all ended))
    show state.handled ++ handled = _
    rw [handled_eq, all_eq]
    cases block with
    | false => rw [if_neg Bool.false_ne_true, if_neg Bool.false_ne_true, List.map_take,
        List.take_length_add_append]
    | true => rw [if_pos rfl, if_pos rfl]

theorem Holds.perform (fits : ∀ message ∈ messages, message.Fits) (holds : Holds messages state)
    {call : RecvCall} (safe : call.Safe state) :
    Returns (call.perform state) call.OutOfMemory (CallHandles messages state call) := by
  cases call with
  | recv count fresh => exact holds.recv fresh safe.2
  | recvCache block => exact holds.recvCache fits block

theorem SafeReaches.holds (fits : ∀ message ∈ messages, message.Fits)
    (reaches : SafeReaches messages state) : Holds messages state := by
  induction reaches with
  | refl => exact holds_start messages
  | tail _ step induction =>
      obtain ⟨call, safe, input, performs, rfl⟩ := step
      exact ((induction.perform fits safe).of_some performs).holds

/-- In a run of safe calls the messages are handled in order, each with its header and its body, no
call reports an error, and after the end of the stream `RecvCache` handles what is left. -/
theorem safeReaches_handled (fits : ∀ message ∈ messages, message.Fits)
    (reaches : SafeReaches messages state) :
    state.InStream messages ∧
      ∀ call : RecvCall, call.Safe state → ¬call.OutOfMemory →
        ∃ input, call.perform state = some input ∧ 0 ≤ input.ret ∧
          ∀ block, call = .recvCache block → state.coming = [] →
            state.handled ++ input.handled = if block then messages.map NestSent.handled else
              (messages.map NestSent.handled).take (state.handled.length + 1) := by
  have holds := reaches.holds fits
  refine ⟨holds.inStream, fun call safe memory => ?_⟩
  obtain ⟨input, eq, handles⟩ | ⟨-, missing⟩ := holds.perform fits safe
  · exact ⟨input, eq, handles.ret_nonneg, handles.all⟩
  · exact absurd missing memory

/-- A register request and a request without a body. -/
def twoMessages : List NestSent := [.doConnected 1, .sendto 7 1 2 3 []]

/-- Both messages are received. -/
def allReceived : ChannelInput :=
  (RecvCall.perform (start twoMessages) (.recv 96 (some fun _ => 0))).get (by decide)

theorem safeReaches_handled_sample :
    SafeReaches twoMessages ⟨allReceived.r, (start twoMessages).coming.drop 96, []⟩ ∧
      (InStream twoMessages ⟨allReceived.r, (start twoMessages).coming.drop 96, []⟩ ∧
        ∀ call : RecvCall,
          call.Safe ⟨allReceived.r, (start twoMessages).coming.drop 96, []⟩ →
          ¬call.OutOfMemory →
          ∃ input, call.perform ⟨allReceived.r, (start twoMessages).coming.drop 96, []⟩ =
              some input ∧ 0 ≤ input.ret ∧
            ∀ block, call = .recvCache block → (start twoMessages).coming.drop 96 = [] →
              [] ++ input.handled = if block then twoMessages.map NestSent.handled else
                (twoMessages.map NestSent.handled).take 1) := by
  have reaches : SafeReaches twoMessages
      ⟨allReceived.r, (start twoMessages).coming.drop 96, []⟩ := by
    refine Relation.ReflTransGen.single ⟨.recv 96 (some fun _ => 0), ⟨⟨by decide, by decide,
      by decide⟩, by decide⟩, allReceived, (Option.some_get _).symm, ?_⟩
    have handled_eq : allReceived.handled = [] :=
      List.length_eq_zero_iff.1 (by decide)
    rw [handled_eq]
    rfl
  have fits : ∀ message ∈ twoMessages, message.Fits := by
    simp only [twoMessages, List.mem_cons, List.not_mem_nil, or_false, forall_eq_or_imp, forall_eq]
    exact ⟨by unfold NestSent.Fits; decide, by unfold NestSent.Fits; decide⟩
  exact ⟨reaches, safeReaches_handled fits reaches⟩

/-! ## Two gigabytes of messages -/

theorem recv_front (sound : r.Sound) (open_bit : r.finBit = false) (front : r.dataHead = 0)
    (byte : Nat → UInt8) (some_bytes : bytes ≠ [])
    (small : r.content.length + bytes.length < 4294967296) :
    ∃ after : CRawCache, r.recv (some byte) (.received bytes) = some ⟨0, after, []⟩ ∧
      after.Sound ∧ after.finBit = false ∧ after.dataHead = 0 ∧
      after.content = r.content ++ bytes := by
  have length_eq := sound.length_content
  obtain ⟨⟨after, thrown⟩, eq, appends, throws⟩ := CRawCache.append_eq sound open_bit (some byte)
    (show bytes.length + r.dataHead + r.dataLen < 4294967296 by omega)
  cases thrown with
  | true => exact absurd (throws rfl) (Option.some_ne_none byte)
  | false =>
      have after_sound : after.Sound := appends.sound
      have content_eq : after.content = r.content ++ bytes := appends.content_eq
      have nonempty : after.dataLen ≠ 0 := by
        rw [← after_sound.length_content, content_eq, List.length_append]
        have := List.length_pos_iff.2 some_bytes
        omega
      have appended : r.appendUncaught (some byte) bytes = some after := by
        rw [CRawCache.appendUncaught, eq]
        rfl
      refine ⟨after, Option.bind_eq_some_iff.2 ⟨after, appended, Option.bind_eq_some_iff.2
        ⟨_, after_sound.data_eq, ?_⟩⟩, after_sound, appends.finBit_eq.trans open_bit,
        appends.dataHead_eq front, content_eq⟩
      rw [CRawCache.skip_zero after_sound nonempty]
      rfl

theorem reaches_buffered (messages : List NestSent)
    (small : (messages.flatMap NestSent.bytes).length < 4294967296) (count : Nat)
    (inside : count ≤ (messages.flatMap NestSent.bytes).length) :
    ∃ r : CRawCache, Reaches messages ⟨r, (messages.flatMap NestSent.bytes).drop count, []⟩ ∧
      r.Sound ∧ r.finBit = false ∧ r.dataHead = 0 ∧
      r.content = (messages.flatMap NestSent.bytes).take count := by
  induction count with
  | zero => exact ⟨.init, .refl, CRawCache.sound_init, rfl, rfl, rfl⟩
  | succ count induction =>
      obtain ⟨r, reaches, sound, open_bit, front, content_eq⟩ := induction (by omega)
      have length_eq : (((messages.flatMap NestSent.bytes).drop count).take 1).length = 1 := by
        rw [List.length_take, List.length_drop]
        omega
      obtain ⟨after, eq, after_sound, after_open, after_front, after_content⟩ :=
        recv_front sound open_bit front (fun _ => 0) (List.ne_nil_of_length_eq_add_one length_eq)
          (by rw [content_eq, length_eq, List.length_take]; omega)
      refine ⟨after,
        reaches.tail ⟨.recv 1 (some fun _ => 0), ⟨by decide, by decide, ?_⟩, _, eq, ?_⟩,
        after_sound, after_open, after_front, ?_⟩
      · rw [List.length_drop]
        omega
      · show _ = ChannelRun.mk after (((messages.flatMap NestSent.bytes).drop count).drop 1) []
        rw [List.drop_drop]
      · rw [after_content, content_eq, List.take_add]

theorem doRecvCache_overflow {first second : NestSent} (first_fits : first.Fits)
    (second_fits : second.Fits)
    (large : 2147483648 ≤ first.bytes.length + second.bytes.length) :
    doRecvCache (first.bytes ++ second.bytes) true = none := by
  have positive := first.bytes_pos
  obtain ⟨rounds, rounds_eq⟩ : ∃ rounds,
      (first.bytes ++ second.bytes).length = rounds + 1 := by
    refine Nat.exists_eq_succ_of_ne_zero ?_
    rw [List.length_append]
    omega
  have first_small := first_fits
  unfold NestSent.Fits at first_small
  have first_sum : int32 (0 + (first.bytes.length : Int)) = some (first.bytes.length : Int) := by
    rw [zero_add]
    exact int32_of_nat (by rw [first.length_bytes]; exact first_small)
  have second_sum : int32 ((first.bytes.length : Int) + second.bytes.length) = none :=
    if_neg (by omega)
  have second_loop := doRecvLoop_whole true rounds second_fits [] first.bytes.length
    [first.handled]
  rw [second_sum, List.append_nil] at second_loop
  rw [doRecvCache, rounds_eq, doRecvLoop_whole true _ first_fits, first_sum]
  exact second_loop

theorem recvCache_none (sound : r.Sound) (some_bytes : r.dataLen ≠ 0)
    (content_eq : r.content = bytes) (overflow : doRecvCache bytes true = none) :
    r.recvCache true = none := by
  rw [CRawCache.recvCache, if_neg some_bytes, sound.data_eq, content_eq]
  show (doRecvCache bytes true).bind _ = none
  rw [overflow, Option.bind_none]

/-- A message with a body of 2^30 bytes. -/
def largeMessage : NestSent := .sendto 0 0 0 0 (List.replicate 1073741824 0)

theorem length_largeMessage : largeMessage.bytes.length = 1073741872 := by
  rw [largeMessage, NestSent.length_bytes, NestSent.body, List.length_replicate, TNetCommuHead.size]

theorem fits_largeMessage : largeMessage.Fits := by
  have length_eq := length_largeMessage
  rw [NestSent.length_bytes] at length_eq
  unfold NestSent.Fits
  rw [length_eq]
  decide

/-- Two messages of 2^30 bytes are received, and `RecvCache` overflows. -/
theorem reaches_overflow : ∃ messages : List NestSent, ∃ state : ChannelRun,
    (∀ message ∈ messages, message.Fits) ∧ Reaches messages state ∧ state.coming = [] ∧
      RecvCall.perform state (.recvCache true) = none := by
  have stream_eq : [largeMessage, largeMessage].flatMap NestSent.bytes =
      largeMessage.bytes ++ largeMessage.bytes := by
    rw [List.flatMap_cons, List.flatMap_cons, List.flatMap_nil, List.append_nil]
  have length_eq : ([largeMessage, largeMessage].flatMap NestSent.bytes).length = 2147483744 := by
    rw [stream_eq, List.length_append, length_largeMessage]
  obtain ⟨r, reaches, sound, -, -, content_eq⟩ := reaches_buffered [largeMessage, largeMessage]
    (by rw [length_eq]; decide) _ (le_refl _)
  rw [List.take_length, stream_eq] at content_eq
  rw [List.drop_length] at reaches
  refine ⟨_, _, ?_, reaches, rfl, ?_⟩
  · intro message member
    rw [List.mem_cons, List.mem_singleton, or_self] at member
    rw [member]
    exact fits_largeMessage
  · have some_bytes : r.dataLen ≠ 0 := by
      rw [← sound.length_content, content_eq, List.length_append, length_largeMessage]
      decide
    have overflow := doRecvCache_overflow fits_largeMessage fits_largeMessage
      (by rw [length_largeMessage]; decide)
    exact recvCache_none sound some_bytes content_eq overflow

end ChannelRun

end Spp
