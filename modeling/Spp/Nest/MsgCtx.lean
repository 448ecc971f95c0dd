import Spp.Nest.CheckMsg

/-!
# Responses of a worker

A worker keeps the header of each request under its flow (`SaveMsgCtx`), and
`TNetCommuClient::sendto` builds the header of the response from it.  The length of the message and
the check word are set anew; `head_len` stays that of the request, though the response has a header
of the usual size.

What `alloc_ctx` gives is a parameter, and so are the clock and what `SendEx` returns.  The list of
contexts by age is left out.
-/

namespace Spp

open TNetCommuHead (size)

/-- `CMsgCtx` -/
structure CMsgCtx where
  timeStart : Nat
  msgHead : TNetCommuHead

/-- `CMsgCtxMng` -/
structure CMsgCtxMng where
  ctxMap : UInt32 → Option CMsgCtx

/-- What `SendToClient` does. -/
structure ClientSent where
  ret : Int
  sent : List UInt8
  mng : CMsgCtxMng

namespace CMsgCtxMng

/-- `SaveMsgCtx` -/
def saveMsgCtx (mng : CMsgCtxMng) (headInfo : TNetCommuHead) (now : Nat) (allocated : Bool) :
    Bool × CMsgCtxMng :=
  if allocated then
    (true, ⟨Function.update mng.ctxMap headInfo.flow (some ⟨now, headInfo⟩)⟩)
  else
    (false, mng)

/-- `RestoreMsgCtx`; what is found is `head_info` and `save_time`. -/
def restoreMsgCtx (mng : CMsgCtxMng) (flow : UInt32) : Option CMsgCtx × CMsgCtxMng :=
  match mng.ctxMap flow with
  | none => (none, mng)
  | some ctx => (some ctx, ⟨Function.update mng.ctxMap ctx.msgHead.flow none⟩)

/-- The head without a context. -/
def defaultMsgHead (flow groupId : UInt32) : TNetCommuHead :=
  { TNetCommuHead.zero with
    magicNum := nestMagicNum, flow := flow, headLen := UInt32.ofNat size, routeId := groupId }

/-- The head of a response. -/
def responseHead (msgCtx : TNetCommuHead) (msgCost len : Nat) : TNetCommuHead :=
  { msgCtx with msgLen := UInt32.ofNat (size + len), timeCost := UInt32.ofNat msgCost }.withCrc

/-- `msg_cost`; the time is asked for again if it has not changed. -/
def msgCost (timeStart now later : Nat) : Nat :=
  let timeNow := if now = timeStart then later else now
  if timeNow > timeStart then timeNow - timeStart else 0

/-- `TNetCommuClient::sendto`; `connected` tells whether there is a channel, `now` and `later` are
the times, and `taken` tells whether `SendEx` takes the message. -/
def sendto (mng : CMsgCtxMng) (connected : Bool) (routeId flow : UInt32) (blob : List UInt8)
    (now later : Nat) (taken : Bool) : ClientSent :=
  if connected then
    let (found, mng) := mng.restoreMsgCtx flow
    let (msgCtx, msgCost) := match found with
      | none => (defaultMsgHead flow routeId, 0)
      | some ctx => (ctx.msgHead, msgCost ctx.timeStart now later)
    if flow ≠ msgCtx.flow then
      ⟨-2, [], mng⟩
    else
      ⟨if taken then 0 else -3,
        (responseHead msgCtx msgCost blob.length).hton.bytes ++ blob, mng⟩
  else
    ⟨-1, [], mng⟩

/-- What other requests and responses do to the contexts. -/
inductive CtxCall where
  | save (headInfo : TNetCommuHead) (now : Nat) (allocated : Bool)
  | restore (flow : UInt32)

/-- The manager after a call. -/
def perform (mng : CMsgCtxMng) : CtxCall → CMsgCtxMng
  | .save headInfo now allocated => (mng.saveMsgCtx headInfo now allocated).2
  | .restore flow => (mng.restoreMsgCtx flow).2

/-- The flow of a call. -/
def CtxCall.flow : CtxCall → UInt32
  | .save headInfo _ _ => headInfo.flow
  | .restore flow => flow

/-- Each context is stored under its flow. -/
def Filed (mng : CMsgCtxMng) : Prop :=
  ∀ flow ctx, mng.ctxMap flow = some ctx → ctx.msgHead.flow = flow

variable {mng : CMsgCtxMng} {request : TNetCommuHead}

theorem Filed.update (filed : mng.Filed) {flow : UInt32} {found : Option CMsgCtx}
    (own : ∀ ctx, found = some ctx → ctx.msgHead.flow = flow) :
    Filed ⟨Function.update mng.ctxMap flow found⟩ := by
  intro other ctx is_found
  dsimp only at is_found
  by_cases same : other = flow
  · rw [same, Function.update_self] at is_found
    rw [same]
    exact own ctx is_found
  · rw [Function.update_of_ne same] at is_found
    exact filed other ctx is_found

theorem saveMsgCtx_found (mng : CMsgCtxMng) (headInfo : TNetCommuHead) (now : Nat) :
    (mng.saveMsgCtx headInfo now true).2.ctxMap headInfo.flow = some ⟨now, headInfo⟩ := by
  rw [saveMsgCtx, if_pos rfl]
  exact Function.update_self ..

/-- A call keeps the contexts under their flows, and it does not touch those of other flows. -/
theorem perform_kept (filed : mng.Filed) (call : CtxCall) :
    (mng.perform call).Filed ∧
      ∀ flow, flow ≠ call.flow → (mng.perform call).ctxMap flow = mng.ctxMap flow := by
  cases call with
  | save headInfo now allocated =>
      cases allocated with
      | false => exact ⟨filed, fun flow _ => rfl⟩
      | true =>
          refine ⟨filed.update fun ctx is_found => ?_, fun flow other =>
            Function.update_of_ne other _ _⟩
          cases is_found
          rfl
  | restore restored =>
      rw [perform, restoreMsgCtx]
      cases found : mng.ctxMap restored with
      | none => exact ⟨filed, fun flow _ => rfl⟩
      | some ctx =>
          refine ⟨filed.update fun ctx is_found => absurd is_found (by simp), fun flow other => ?_⟩
          refine Function.update_of_ne ?_ _ _
          rw [filed restored ctx found]
          exact other

theorem foldl_perform_kept (filed : mng.Filed) {flow : UInt32} {calls : List CtxCall}
    (others : ∀ call ∈ calls, call.flow ≠ flow) :
    (calls.foldl perform mng).ctxMap flow = mng.ctxMap flow := by
  induction calls generalizing mng with
  | nil => rfl
  | cons call calls induction =>
      obtain ⟨filed_after, same⟩ := perform_kept filed call
      rw [List.foldl_cons, induction filed_after fun other member =>
        others other (List.mem_cons_of_mem _ member)]
      exact same flow (others call List.mem_cons_self).symm

/-! ## The response -/

/-- `CheckMsg` accepts the message as a whole, with the fields of the request, and its body is the
blob. -/
structure Answers (request : TNetCommuHead) (blob message : List UInt8) : Prop where
  positive : 0 < (checkMsg message).ret
  whole : (checkMsg message).ret = message.length
  flow_eq : (checkMsg message).head.flow = request.flow
  routeId_eq : (checkMsg message).head.routeId = request.routeId
  rcvSec_eq : (checkMsg message).head.rcvSec = request.rcvSec
  rcvUsec_eq : (checkMsg message).head.rcvUsec = request.rcvUsec
  body_eq : ((checkMsg message).handle message).body = blob

theorem checkMsg_response (magic : request.magicNum = nestMagicNum) (cost : Nat)
    (blob : List UInt8) :
    checkMsg ((responseHead request cost blob.length).hton.bytes ++ blob) =
      if size + blob.length < (size + blob.length) % 4294967296 then
        ⟨0, responseHead request cost blob.length⟩
      else if request.headLen.toNat > (size + blob.length) % 4294967296 then
        ⟨-2, responseHead request cost blob.length⟩
      else
        ⟨i32 ((size + blob.length) % 4294967296 : Nat), responseHead request cost blob.length⟩ := by
  have same_magic : (responseHead request cost blob.length).magicNum = nestMagicNum := magic
  have announced : Announced ((responseHead request cost blob.length).hton.bytes ++ blob) :=
    announced_append same_magic (TNetCommuHead.checkCrc_withCrc _) blob
  have msg_eq : (responseHead request cost blob.length).msgLen =
      UInt32.ofNat (size + blob.length) :=
    rfl
  have head_eq : (responseHead request cost blob.length).headLen = request.headLen := rfl
  rw [checkMsg_announced announced, frontHead_append, List.length_append,
    TNetCommuHead.length_bytes, msg_eq, head_eq, UInt32.toNat_ofNat']

/-- A response can be taken apart if and only if the request has a header of the usual size and the
length is an `int32_t`. -/
theorem response_answers_iff (magic : request.magicNum = nestMagicNum) (cost : Nat)
    (blob : List UInt8) :
    Answers request blob ((responseHead request cost blob.length).hton.bytes ++ blob) ↔
      request.headLen.toNat = size ∧ size + blob.length < 2147483648 := by
  have checked := checkMsg_response magic cost blob
  have front_length : (responseHead request cost blob.length).hton.bytes.length = size :=
    TNetCommuHead.length_bytes _
  have head_eq : (responseHead request cost blob.length).headLen = request.headLen := rfl
  have size_eq : size = 48 := rfl
  generalize (responseHead request cost blob.length).hton.bytes = front at *
  constructor
  · intro answers
    have positive := answers.positive
    have whole := answers.whole
    have body_eq := congrArg List.length answers.body_eq
    rw [List.length_append, front_length] at whole
    rw [CheckedMsg.handle, List.length_drop, List.length_take, List.length_append, front_length,
      whole] at body_eq
    rw [checked] at positive whole body_eq
    by_cases wraps : size + blob.length < (size + blob.length) % 4294967296
    · rw [if_pos wraps] at positive
      exact absurd positive (lt_irrefl 0)
    · rw [if_neg wraps] at positive whole body_eq
      by_cases beyond : request.headLen.toNat > (size + blob.length) % 4294967296
      · rw [if_pos beyond] at positive
        exact absurd positive (show ¬(0 : Int) < -2 by decide)
      · rw [if_neg beyond] at positive whole body_eq
        dsimp only at positive whole body_eq
        rw [head_eq] at body_eq
        have small := i32_lt ((size + blob.length) % 4294967296 : Nat)
        omega
  · rintro ⟨usual, small⟩
    have wraps_not : (size + blob.length) % 4294967296 = size + blob.length :=
      Nat.mod_eq_of_lt (by omega)
    rw [wraps_not, if_neg (lt_irrefl _), if_neg (by omega), i32_of_lt small] at checked
    refine ⟨?_, ?_, ?_, ?_, ?_, ?_, ?_⟩
    · rw [checked]
      exact Int.natCast_pos.mpr (by omega)
    · rw [checked, List.length_append, front_length]
    · rw [checked]
      rfl
    · rw [checked]
      rfl
    · rw [checked]
      rfl
    · rw [checked]
      rfl
    · rw [checked, CheckedMsg.handle]
      dsimp only
      rw [Int.toNat_natCast, head_eq, usual,
        List.take_of_length_le (by rw [List.length_append, front_length])]
      exact List.drop_left' front_length

theorem sendto_sent {ctx : CMsgCtx} (found : mng.ctxMap ctx.msgHead.flow = some ctx)
    (routeId : UInt32) (blob : List UInt8) (now later : Nat) (taken : Bool) :
    (mng.sendto true routeId ctx.msgHead.flow blob now later taken).sent =
      (responseHead ctx.msgHead
        (msgCost ctx.timeStart now later) blob.length).hton.bytes ++ blob := by
  rw [sendto, restoreMsgCtx, found]
  simp only [if_true, ne_eq, not_true_eq_false, if_false]

/-- A request that `CheckMsg` accepts is stored, and contexts of other flows come and go.  The
response can be taken apart if and only if `head_len` of the request is the size of a header and the
length of the response is an `int32_t`. -/
theorem sendto_answers_iff {mng : CMsgCtxMng} (filed : mng.Filed) {request : List UInt8}
    (accepted : 0 < (checkMsg request).ret) (start : Nat) {calls : List CtxCall}
    (others : ∀ call ∈ calls, call.flow ≠ (checkMsg request).head.flow) (routeId : UInt32)
    (blob : List UInt8) (now later : Nat) (taken : Bool) :
    Answers (checkMsg request).head blob
        ((calls.foldl perform (mng.saveMsgCtx (checkMsg request).head start true).2).sendto true
          routeId (checkMsg request).head.flow blob now later taken).sent ↔
      (checkMsg request).head.headLen.toNat = size ∧ size + blob.length < 2147483648 := by
  have announced : Announced request := by
    by_contra not_announced
    have := checkMsg_unannounced not_announced
    omega
  have magic : (checkMsg request).head.magicNum = nestMagicNum := by
    rw [checkMsg_announced announced, apply_ite CheckedMsg.head, apply_ite CheckedMsg.head,
      ite_self,
      ite_self]
    exact announced.magic
  have filed_after := (perform_kept filed (.save (checkMsg request).head start true)).1
  have kept := foldl_perform_kept filed_after others
  have found : (calls.foldl perform (mng.saveMsgCtx (checkMsg request).head start true).2).ctxMap
      (checkMsg request).head.flow = some ⟨start, (checkMsg request).head⟩ :=
    kept.trans (saveMsgCtx_found ..)
  generalize (checkMsg request).head = head at *
  rw [show head.flow = (CMsgCtx.mk start head).msgHead.flow from rfl, sendto_sent found]
  exact response_answers_iff magic _ blob

/-- No contexts. -/
def empty : CMsgCtxMng := ⟨fun _ => none⟩

theorem filed_empty : empty.Filed := fun _ _ is_found => absurd is_found (by simp [empty])

theorem sendto_answers_usual :
    Answers (NestSent.sendto 7 1 2 3 [9]).head [5, 6]
      ((empty.saveMsgCtx (NestSent.sendto 7 1 2 3 [9]).head 100 true).2.sendto true 1 7 [5, 6]
        110 110 true).sent := by
  have fits : (NestSent.sendto 7 1 2 3 [9]).Fits := by
    unfold NestSent.Fits
    decide
  have checked := checkMsg_whole fits []
  have accepted : 0 < (checkMsg ((NestSent.sendto 7 1 2 3 [9]).bytes ++ [])).ret := by
    rw [checked]
    exact Int.natCast_pos.mpr (NestSent.bytes_pos _)
  have others : ∀ call ∈ ([] : List CtxCall),
      call.flow ≠ (checkMsg ((NestSent.sendto 7 1 2 3 [9]).bytes ++ [])).head.flow :=
    fun call member => absurd member List.not_mem_nil
  have answers := sendto_answers_iff filed_empty accepted 100 others 1 [5, 6] 110 110 true
  rw [checked] at answers
  exact answers.mpr ⟨rfl, by decide⟩

/-- The header of a request with four bytes behind the usual fields. -/
def extendedHead : TNetCommuHead :=
  { TNetCommuHead.zero with
    magicNum := nestMagicNum, msgLen := 52, headLen := 52, flow := 7 }.withCrc

/-- A request with a longer header is accepted and stored.  The first four bytes of the response are
taken as a part of its header. -/
theorem sendto_answers_extended :
    checkMsg (extendedHead.hton.bytes ++ [0, 0, 0, 0]) = ⟨52, extendedHead⟩ ∧
      (empty.saveMsgCtx extendedHead 100 true).1 = true ∧
      ∃ sent, ((empty.saveMsgCtx extendedHead 100 true).2.sendto true 1 7 [1, 2, 3, 4, 5] 110 110
          true).sent = sent ∧
        (checkMsg sent).ret = sent.length ∧ ((checkMsg sent).handle sent).body = [5] := by
  have magic : extendedHead.magicNum = nestMagicNum := rfl
  have msg_eq : extendedHead.msgLen.toNat = 52 := rfl
  have head_eq : extendedHead.headLen.toNat = 52 := rfl
  have size_eq : size = 48 := rfl
  refine ⟨?_, rfl, (responseHead extendedHead 10 5).hton.bytes ++ [1, 2, 3, 4, 5], ?_, ?_⟩
  · rw [checkMsg_announced (announced_append magic (TNetCommuHead.checkCrc_withCrc _) _),
      frontHead_append, List.length_append, TNetCommuHead.length_bytes, msg_eq, head_eq]
    rfl
  · have found := saveMsgCtx_found empty (CMsgCtx.mk 100 extendedHead).msgHead 100
    exact sendto_sent found 1 [1, 2, 3, 4, 5] 110 110 true
  · have checked := checkMsg_response magic 10 [1, 2, 3, 4, 5]
    have front_length : (responseHead extendedHead 10 5).hton.bytes.length = 48 :=
      TNetCommuHead.length_bytes _
    have same_head : (responseHead extendedHead 10 5).headLen = extendedHead.headLen := rfl
    rw [head_eq] at checked
    have checked : checkMsg ((responseHead extendedHead 10 5).hton.bytes ++ [1, 2, 3, 4, 5]) =
        ⟨53, responseHead extendedHead 10 5⟩ := checked
    rw [checked, CheckedMsg.handle]
    dsimp only
    rw [same_head, head_eq]
    constructor
    · rw [List.length_append, front_length]
      rfl
    · rw [List.take_of_length_le (by rw [List.length_append, front_length]; decide),
        List.drop_append, List.drop_eq_nil_of_le (by omega), front_length]
      rfl

end CMsgCtxMng

end Spp
