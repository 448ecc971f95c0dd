import Spp.Lib.MachineInt
import Spp.Lib.Words

/-!
# Messages between proxy and worker, `TNetCommuHead`

The header of `nest/comm/nest_context.h` in front of each message, the two ways to build it, and
`TCommuDisp::CheckMsg` of `nest/comm/nest_commu.cpp`, which looks for a message at the front of some
bytes.

A header is twelve words.  They are sent in network order, and the host has the other order.
`TNetCommuServer::sendto` forms the check word before it changes the order, and `DoConnected` and
`Heartbeat` form it afterwards.
-/

namespace Spp

/-- `htonl` -/
def htonl (word : UInt32) : UInt32 := byteSwap word

/-- `ntohl` -/
def ntohl (word : UInt32) : UInt32 := byteSwap word

/-- `NEST_MAGIC_NUM` -/
def nestMagicNum : UInt32 := 1953719662

/-- `NEST_MSG_TYPE_REGIST` -/
def nestMsgTypeRegist : UInt32 := 1

/-- `NEST_MSG_TYPE_HEARTBEAT` -/
def nestMsgTypeHeartbeat : UInt32 := 2

/-- `TNetCommuHead` -/
structure TNetCommuHead where
  magicNum : UInt32
  msgLen : UInt32
  headLen : UInt32
  msgType : UInt32
  routeId : UInt32
  flow : UInt32
  crc : UInt32
  fromIp : UInt32
  fromPort : UInt32
  rcvSec : UInt32
  rcvUsec : UInt32
  timeCost : UInt32
  deriving DecidableEq

namespace TNetCommuHead

/-- `TNetCommuHead inner_msg = {0}` -/
def zero : TNetCommuHead := ⟨0, 0, 0, 0, 0, 0, 0, 0, 0, 0, 0, 0⟩

/-- `sizeof(TNetCommuHead)` -/
def size : Nat := 48

/-- The fields in their order in memory. -/
def words (head : TNetCommuHead) : List UInt32 :=
  [head.magicNum, head.msgLen, head.headLen, head.msgType, head.routeId, head.flow, head.crc,
    head.fromIp, head.fromPort, head.rcvSec, head.rcvUsec, head.timeCost]

/-- The head with these fields. -/
def ofWords : List UInt32 → TNetCommuHead
  | [magicNum, msgLen, headLen, msgType, routeId, flow, crc, fromIp, fromPort, rcvSec, rcvUsec,
      timeCost] =>
      ⟨magicNum, msgLen, headLen, msgType, routeId, flow, crc, fromIp, fromPort, rcvSec, rcvUsec,
        timeCost⟩
  | _ => zero

/-- The head in memory. -/
def bytes (head : TNetCommuHead) : List UInt8 := head.words.flatMap wordBytes

/-- The head of which these are the bytes. -/
def ofBytes (bytes : List UInt8) : TNetCommuHead := ofWords (readWords 12 bytes)

/-- The fields in network order. -/
def hton (head : TNetCommuHead) : TNetCommuHead where
  magicNum := htonl head.magicNum
  msgLen := htonl head.msgLen
  headLen := htonl head.headLen
  msgType := htonl head.msgType
  routeId := htonl head.routeId
  flow := htonl head.flow
  crc := htonl head.crc
  fromIp := htonl head.fromIp
  fromPort := htonl head.fromPort
  rcvSec := htonl head.rcvSec
  rcvUsec := htonl head.rcvUsec
  timeCost := htonl head.timeCost

/-- The fields in host order. -/
def ntoh (head : TNetCommuHead) : TNetCommuHead where
  magicNum := ntohl head.magicNum
  msgLen := ntohl head.msgLen
  headLen := ntohl head.headLen
  msgType := ntohl head.msgType
  routeId := ntohl head.routeId
  flow := ntohl head.flow
  crc := ntohl head.crc
  fromIp := ntohl head.fromIp
  fromPort := ntohl head.fromPort
  rcvSec := ntohl head.rcvSec
  rcvUsec := ntohl head.rcvUsec
  timeCost := ntohl head.timeCost

/-- The fields, combined with exclusive or. -/
def xorWords (head : TNetCommuHead) : UInt32 :=
  head.words.tail.foldl (· ^^^ ·) head.magicNum

/-- `check_crc` -/
def checkCrc (head : TNetCommuHead) : Bool := head.xorWords = 0

/-- `generate_crc` -/
def generateCrc (head : TNetCommuHead) : UInt32 := { head with crc := 0 }.xorWords

/-- The head with its `crc`. -/
def withCrc (head : TNetCommuHead) : TNetCommuHead := { head with crc := head.generateCrc }

theorem ofBytes_bytes_append (head : TNetCommuHead) (rest : List UInt8) :
    ofBytes (head.bytes ++ rest) = head := by
  have words_eq : readWords 12 (head.bytes ++ rest) = head.words := readWords_append head.words rest
  rw [ofBytes, words_eq]
  rfl

@[simp] theorem length_bytes (head : TNetCommuHead) : head.bytes.length = size :=
  length_flatMap_wordBytes head.words

@[simp] theorem ntoh_hton (head : TNetCommuHead) : head.hton.ntoh = head := by
  simp only [ntoh, hton, ntohl, htonl, byteSwap_byteSwap]

theorem xorWords_hton (head : TNetCommuHead) : head.hton.xorWords = byteSwap head.xorWords := by
  have tail_eq : head.hton.words.tail = head.words.tail.map byteSwap := rfl
  rw [xorWords, tail_eq]
  exact foldl_xor_map_byteSwap _ _

/-- The check word of a header in network order is that of the header in host order, in network
order. -/
theorem withCrc_hton (head : TNetCommuHead) : head.hton.withCrc = head.withCrc.hton := by
  have crc_eq : head.hton.generateCrc = htonl head.generateCrc := by
    rw [generateCrc, generateCrc, htonl, ← xorWords_hton]
    simp only [hton, htonl, byteSwap_zero]
  rw [withCrc, crc_eq]
  rfl

theorem xorWords_eq (head : TNetCommuHead) : head.xorWords = head.generateCrc ^^^ head.crc := by
  simp only [generateCrc, xorWords, words, List.tail_cons, List.foldl_cons, List.foldl_nil,
    UInt32.xor_zero]
  ac_rfl

@[simp] theorem checkCrc_withCrc (head : TNetCommuHead) : head.withCrc.checkCrc = true := by
  have crc_eq : head.withCrc.generateCrc = head.withCrc.crc := rfl
  rw [checkCrc, xorWords_eq, crc_eq, UInt32.xor_self, decide_eq_true rfl]

end TNetCommuHead

/-- The messages that are sent. -/
inductive NestSent where
  /-- `TNetCommuServer::sendto`: the flow, the group, the time and the body. -/
  | sendto (flow groupid sec usec : UInt32) (body : List UInt8)
  | doConnected (groupid : UInt32)
  | heartbeat (groupid : UInt32)

namespace NestSent

open TNetCommuHead (size)

/-- The header that `TNetCommuServer::sendto` puts before a body of a length. -/
def sendtoHead (flow groupid sec usec : UInt32) (len : Nat) : TNetCommuHead :=
  let innerMsg : TNetCommuHead := { TNetCommuHead.zero with
    magicNum := nestMagicNum, msgLen := UInt32.ofNat (size + len), flow := flow,
    headLen := UInt32.ofNat size, msgType := 0, routeId := groupid, rcvSec := sec, rcvUsec := usec }
  innerMsg.withCrc.hton

/-- The head of a message without a body. -/
def controlHead (msgType groupid : UInt32) : TNetCommuHead :=
  let innerMsg : TNetCommuHead := { TNetCommuHead.zero with
    magicNum := htonl nestMagicNum, msgLen := htonl (UInt32.ofNat size), flow := 0,
    headLen := htonl (UInt32.ofNat size), msgType := htonl msgType, routeId := htonl groupid }
  innerMsg.withCrc

/-- The bytes after the head. -/
def body : NestSent → List UInt8
  | .sendto _ _ _ _ body => body
  | .doConnected _ | .heartbeat _ => []

/-- The message on the wire. -/
def bytes : NestSent → List UInt8
  | .sendto flow groupid sec usec body =>
      (sendtoHead flow groupid sec usec body.length).bytes ++ body
  | .doConnected groupid => (controlHead nestMsgTypeRegist groupid).bytes
  | .heartbeat groupid => (controlHead nestMsgTypeHeartbeat groupid).bytes

/-- The fields that the sender chooses: the type, the group, the flow and the time. -/
def fields : NestSent → UInt32 × UInt32 × UInt32 × UInt32 × UInt32
  | .sendto flow groupid sec usec _ => (0, groupid, flow, sec, usec)
  | .doConnected groupid => (nestMsgTypeRegist, groupid, 0, 0, 0)
  | .heartbeat groupid => (nestMsgTypeHeartbeat, groupid, 0, 0, 0)

/-- The header of a message in host order, without the check word. -/
def plainHead (message : NestSent) : TNetCommuHead :=
  let (msgType, groupid, flow, sec, usec) := message.fields
  { TNetCommuHead.zero with
    magicNum := nestMagicNum, msgLen := UInt32.ofNat (size + message.body.length), flow := flow,
    headLen := UInt32.ofNat size, msgType := msgType, routeId := groupid, rcvSec := sec,
    rcvUsec := usec }

/-- The head in host order. -/
def head (message : NestSent) : TNetCommuHead := message.plainHead.withCrc

/-- `DoConnected` and `Heartbeat` send the header in network order with the right check word. -/
theorem controlHead_eq (msgType groupid : UInt32) : controlHead msgType groupid =
    ({ TNetCommuHead.zero with
      magicNum := nestMagicNum, msgLen := UInt32.ofNat size, headLen := UInt32.ofNat size,
      msgType := msgType, routeId := groupid } : TNetCommuHead).withCrc.hton := by
  rw [← TNetCommuHead.withCrc_hton]
  simp only [controlHead, TNetCommuHead.hton, TNetCommuHead.zero, htonl, byteSwap_zero]

theorem bytes_eq (message : NestSent) :
    message.bytes = message.head.hton.bytes ++ message.body := by
  cases message with
  | sendto flow groupid sec usec body => rfl
  | doConnected groupid | heartbeat groupid =>
      rw [bytes, controlHead_eq, body, List.append_nil]
      rfl

theorem length_bytes (message : NestSent) :
    message.bytes.length = size + message.body.length := by
  rw [bytes_eq, List.length_append, TNetCommuHead.length_bytes]

/-- The length is a positive `int32_t`. -/
def Fits (message : NestSent) : Prop := size + message.body.length < 2147483648

theorem Fits.msgLen {message : NestSent} (fits : message.Fits) :
    message.head.msgLen.toNat = message.bytes.length := by
  have small := fits
  unfold Fits at small
  rw [length_bytes]
  exact UInt32.toNat_ofNat_of_lt' (small.trans (by decide))

end NestSent

/-! ## Finding a message -/

/-- What `CheckMsg` gives: what it returns, and the header. -/
structure CheckedMsg where
  ret : Int
  head : TNetCommuHead

/-- `CheckMsg`; the header is not written if the bytes are too few. -/
def checkMsg (bytes : List UInt8) : CheckedMsg :=
  if bytes.length < TNetCommuHead.size then
    ⟨0, .zero⟩
  else
    let head := (TNetCommuHead.ofBytes bytes).ntoh
    if head.magicNum ≠ nestMagicNum then
      ⟨-1, head⟩
    else if !head.checkCrc then
      ⟨-11, head⟩
    else if bytes.length < head.msgLen.toNat then
      ⟨0, head⟩
    else if head.headLen > head.msgLen then
      ⟨-2, head⟩
    else
      ⟨i32 head.msgLen.toNat, head⟩

open TNetCommuHead (size)

variable {message : NestSent}

theorem checkMsg_head (fits : message.Fits) (rest : List UInt8) :
    checkMsg (message.head.hton.bytes ++ rest) =
      if rest.length < message.body.length then ⟨0, message.head⟩
      else ⟨message.bytes.length, message.head⟩ := by
  have magic_eq : message.head.magicNum = nestMagicNum := rfl
  have crc_eq : message.head.checkCrc = true := TNetCommuHead.checkCrc_withCrc _
  have length_eq : (message.head.hton.bytes ++ rest).length = size + rest.length := by
    rw [List.length_append, TNetCommuHead.length_bytes]
  have small := fits
  unfold NestSent.Fits at small
  have head_le : ¬message.head.headLen > message.head.msgLen := by
    rw [gt_iff_lt, UInt32.lt_iff_toNat_lt, fits.msgLen, message.length_bytes, not_lt]
    exact Nat.le_add_right _ _
  have ret_eq : i32 (message.bytes.length : Nat) = message.bytes.length :=
    i32_of_lt (by rw [message.length_bytes]; exact small)
  rw [checkMsg, length_eq, if_neg (by omega), TNetCommuHead.ofBytes_bytes_append,
    TNetCommuHead.ntoh_hton]
  dsimp only
  rw [if_neg (not_not_intro magic_eq), crc_eq, if_neg (by decide), if_neg head_le, fits.msgLen,
    ret_eq, message.length_bytes]
  simp only [Nat.add_lt_add_iff_left]

theorem checkMsg_whole (fits : message.Fits) (rest : List UInt8) :
    checkMsg (message.bytes ++ rest) = ⟨message.bytes.length, message.head⟩ := by
  have checked := checkMsg_head fits (message.body ++ rest)
  rw [← List.append_assoc, ← message.bytes_eq] at checked
  rw [checked, if_neg]
  rw [List.length_append]
  omega

theorem checkMsg_part (fits : message.Fits) {part rest : List UInt8}
    (split : part ++ rest = message.bytes) (missing : rest ≠ []) : (checkMsg part).ret = 0 := by
  by_cases short : part.length < size
  · rw [checkMsg, if_pos short]
  · rw [message.bytes_eq] at split
    have head_le : message.head.hton.bytes.length ≤ part.length := by
      rw [TNetCommuHead.length_bytes]
      exact Nat.le_of_not_lt short
    obtain ⟨front, rfl⟩ := List.prefix_of_prefix_length_le (List.prefix_append _ message.body)
      ⟨rest, split⟩ head_le
    rw [List.append_assoc, List.append_cancel_left_eq] at split
    have := List.length_pos_iff.2 missing
    rw [checkMsg_head fits, if_pos]
    rw [← split, List.length_append]
    omega

end Spp
