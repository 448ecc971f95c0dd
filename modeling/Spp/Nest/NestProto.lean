import Spp.Nest.CommuHead

/-!
# Packets of the agent, `NestProtoCheck` and `NestProtoPackPkg`

A packet of `nest/comm/nest_proto.cpp` is a bracket, the lengths of its head and of its body in
network order, the head, the body and a bracket.  A pointer is the memory from its address on.

`NestProtoCheck` adds the two lengths as 32-bit numbers, and the sum may wrap.
-/

namespace Spp

/-- `NEST_PKG_STX` -/
def nestPkgStx : UInt8 := 0x5b

/-- `NEST_PKG_ETX` -/
def nestPkgEtx : UInt8 := 0x5d

/-- `NEST_PKG_COMM_HEAD_LEN` -/
def nestPkgCommHeadLen : Nat := 10

/-- `NEST_PKG_HEAD_LEN_POS` -/
def nestPkgHeadLenPos : Nat := 1

/-- `NEST_PKG_BODY_LEN_POS` -/
def nestPkgBodyLenPos : Nat := 5

/-- `NEST_PKG_HEAD_BUFF_POS` -/
def nestPkgHeadBuffPos : Nat := 9

/-- `NestPkgInfo` -/
structure NestPkgInfo where
  msgBuff : Option ByteRegion
  buffLen : UInt32
  headBuff : Option ByteRegion
  headLen : UInt32
  bodyBuff : Option ByteRegion
  bodyLen : UInt32

/-- What `NestProtoCheck` and `NestProtoPackPkg` lead to. -/
structure NestPkgDone where
  ret : Int
  errMsg : Option String
  pkg : Option NestPkgInfo

/-- The length of a packet. -/
def nestMsgLen (headLen bodyLen : UInt32) : Nat :=
  u32 (nestPkgCommHeadLen + headLen.toNat + bodyLen.toNat)

/-- A length in the packet. -/
def nestReadLen (mem : ByteRegion) (pos : Nat) : Option UInt32 :=
  (mem.read pos 4).map fun bytes => ntohl (readWord bytes)

/-- A byte of the packet. -/
def nestReadChar (mem : ByteRegion) (pos : Nat) : Option UInt8 :=
  if pos < mem.size then some (mem.byte pos) else none

namespace NestPkgInfo

/-- `NestProtoCheck` after the first bracket and the lengths. -/
def checkEtx (pkg : NestPkgInfo) (mem : ByteRegion) (headLen bodyLen : UInt32) :
    Option NestPkgDone :=
  if nestMsgLen headLen bodyLen > pkg.buffLen.toNat then
    some ⟨0, none, pkg⟩
  else do
    let etx ← nestReadChar mem (u32 ((nestMsgLen headLen bodyLen : Int) - 1))
    if etx ≠ nestPkgEtx then
      let char := etx.toInt8.toInt
      return ⟨-3, s!"check package failed, etx: {char} invalid", pkg⟩
    else
      let head := mem.behind nestPkgHeadBuffPos
      let body := head.behind headLen.toNat
      return ⟨i32 (nestMsgLen headLen bodyLen), none,
        some { pkg with headBuff := some head, headLen, bodyBuff := some body, bodyLen }⟩

/-- `NestProtoCheck` of a buffer. -/
def check (pkg : NestPkgInfo) (mem : ByteRegion) : Option NestPkgDone :=
  if pkg.buffLen.toNat < nestPkgCommHeadLen then
    some ⟨0, none, pkg⟩
  else do
    let stx ← nestReadChar mem 0
    if stx ≠ nestPkgStx then
      let char := stx.toInt8.toInt
      return ⟨-2, s!"check package failed, stx: {char} invalid", pkg⟩
    else
      let headLen ← nestReadLen mem nestPkgHeadLenPos
      let bodyLen ← nestReadLen mem nestPkgBodyLenPos
      pkg.checkEtx mem headLen bodyLen

/-- `NestProtoPackPkg` behind the lengths: the head, the body and the second bracket. -/
def packParts (pkg : NestPkgInfo) (mem head : ByteRegion) : Option ByteRegion := do
  let headBytes ← head.read 0 pkg.headLen.toNat
  let mem ← mem.write nestPkgHeadBuffPos headBytes
  let mem ← match pkg.bodyBuff with
    | none => some mem
    | some body =>
        if pkg.bodyLen.toNat > 0 then do
          let bodyBytes ← body.read 0 pkg.bodyLen.toNat
          mem.write (nestPkgHeadBuffPos + pkg.headLen.toNat) bodyBytes
        else
          some mem
  if nestMsgLen pkg.headLen pkg.bodyLen = 0 then
    none
  else
    mem.write (nestMsgLen pkg.headLen pkg.bodyLen - 1) [nestPkgEtx]

/-- `NestProtoPackPkg` of a head into a buffer, which may be `NULL`. -/
def pack (pkg : NestPkgInfo) (head : ByteRegion) : Option NestPkgDone :=
  if pkg.buffLen.toNat < nestMsgLen pkg.headLen pkg.bodyLen then
    some ⟨-2, "input buff len too small", pkg⟩
  else do
    let mem ← pkg.msgBuff
    let mem ← mem.write 0 [nestPkgStx]
    let mem ← mem.write nestPkgHeadLenPos (wordBytes (htonl pkg.headLen))
    let mem ← mem.write nestPkgBodyLenPos (wordBytes (htonl pkg.bodyLen))
    let mem ← pkg.packParts mem head
    return ⟨i32 (nestMsgLen pkg.headLen pkg.bodyLen), none, some { pkg with msgBuff := some mem }⟩

end NestPkgInfo

/-- `NestProtoCheck` -/
def nestProtoCheck (pkgInfo : Option NestPkgInfo) : Option NestPkgDone :=
  match pkgInfo with
  | none => some ⟨-1, "input param pkg info invalid", none⟩
  | some pkg =>
      match pkg.msgBuff with
      | none => some ⟨-1, "input param pkg info invalid", pkg⟩
      | some mem => pkg.check mem

/-- `NestProtoPackPkg` -/
def nestProtoPackPkg (pkgInfo : Option NestPkgInfo) : Option NestPkgDone :=
  match pkgInfo with
  | none => some ⟨-1, "input param pkg info invalid", none⟩
  | some pkg =>
      match pkg.headBuff with
      | none => some ⟨-1, "input param pkg info invalid", pkg⟩
      | some head => pkg.pack head

/-! ## What the check reads -/

/-- The length that stands at a place. -/
def lenAt (mem : ByteRegion) (pos : Nat) : UInt32 := ntohl (readWord (slice mem.byte pos 4))

/-- The length that the check computes for the packet at the front of a buffer. -/
def frontMsgLen (mem : ByteRegion) : Nat :=
  nestMsgLen (lenAt mem nestPkgHeadLenPos) (lenAt mem nestPkgBodyLenPos)

/-- The length of the packet at the front of a buffer. -/
def frontPkgLen (mem : ByteRegion) : Nat :=
  nestPkgCommHeadLen + (lenAt mem nestPkgHeadLenPos).toNat + (lenAt mem nestPkgBodyLenPos).toNat

theorem frontMsgLen_eq (mem : ByteRegion) : frontMsgLen mem = frontPkgLen mem % 4294967296 := by
  unfold frontMsgLen nestMsgLen frontPkgLen u32
  omega

/-- The packet that a check finds is the one that its lengths announce, with its head and its body
one behind the other between the brackets. -/
structure NestPkgInfo.Found (mem : ByteRegion) (ret : Int) (pkg : NestPkgInfo) : Prop where
  ret_eq : ret = 10 + pkg.headLen.toNat + pkg.bodyLen.toNat
  ret_le : ret ≤ mem.size
  stx : mem.byte 0 = nestPkgStx
  etx : mem.byte (ret.toNat - 1) = nestPkgEtx
  head : pkg.headBuff = some (mem.behind 9)
  body : pkg.bodyBuff = some (mem.behind (9 + pkg.headLen.toNat))

/-- The check stays in the buffer, and what it finds is a packet. -/
def NestPkgInfo.CheckExact (pkg : NestPkgInfo) (mem : ByteRegion) : Prop :=
  ∃ done, nestProtoCheck (some pkg) = some done ∧
    (0 < done.ret → ∃ after, done.pkg = some after ∧ after.Found mem done.ret)

/-- The sum of the lengths wraps, and the wrong sum is 0 or the position behind a bracket. -/
structure LengthWraps (mem : ByteRegion) : Prop where
  whole : 10 ≤ mem.size
  stx : mem.byte 0 = nestPkgStx
  wraps : 4294967296 ≤ frontPkgLen mem
  misread : frontMsgLen mem = 0 ∨ frontMsgLen mem ≤ mem.size ∧ frontMsgLen mem < 2147483648 ∧
    mem.byte (frontMsgLen mem - 1) = nestPkgEtx

namespace NestPkgInfo

variable {pkg : NestPkgInfo} {mem : ByteRegion}

theorem nestProtoCheck_eq (buff : pkg.msgBuff = some mem) :
    nestProtoCheck (some pkg) = pkg.check mem := by
  rw [nestProtoCheck, buff]

section Check

variable {headLen bodyLen : UInt32} (size_eq : mem.size = pkg.buffLen.toNat)

include size_eq

theorem check_short (short : mem.size < 10) : pkg.check mem = some ⟨0, none, pkg⟩ :=
  if_pos (size_eq ▸ short)

theorem check_stx (whole : 10 ≤ mem.size) (wrong : mem.byte 0 ≠ nestPkgStx) :
    ∃ errMsg, pkg.check mem = some ⟨-2, errMsg, pkg⟩ := by
  have enough : ¬pkg.buffLen.toNat < nestPkgCommHeadLen := size_eq ▸ Nat.not_lt.2 whole
  have char : nestReadChar mem 0 = some (mem.byte 0) := if_pos (by omega)
  rw [check, if_neg enough, char]
  exact ⟨_, if_pos wrong⟩

theorem check_lengths (whole : 10 ≤ mem.size) (stx : mem.byte 0 = nestPkgStx) :
    pkg.check mem = pkg.checkEtx mem (lenAt mem nestPkgHeadLenPos)
      (lenAt mem nestPkgBodyLenPos) := by
  have enough : ¬pkg.buffLen.toNat < nestPkgCommHeadLen := size_eq ▸ Nat.not_lt.2 whole
  have char : nestReadChar mem 0 = some nestPkgStx := stx ▸ if_pos (by omega)
  have len : ∀ pos ≤ 6, nestReadLen mem pos = some (lenAt mem pos) := by
    intro pos inside
    rw [nestReadLen, ByteRegion.read_eq (by omega)]
    rfl
  rw [check, if_neg enough, char, len _ (by decide), len _ (by decide)]
  rfl

theorem checkEtx_wait (wait : mem.size < nestMsgLen headLen bodyLen) :
    pkg.checkEtx mem headLen bodyLen = some ⟨0, none, pkg⟩ :=
  if_pos (size_eq ▸ wait)

theorem checkEtx_zero (zero : nestMsgLen headLen bodyLen = 0) :
    pkg.checkEtx mem headLen bodyLen = none := by
  have outside : ¬u32 ((0 : Nat) - 1 : Int) < mem.size := by
    have := pkg.buffLen.toNat_lt
    unfold u32
    omega
  rw [checkEtx, zero, if_neg (Nat.not_lt_zero _), nestReadChar, if_neg outside]
  rfl

theorem checkEtx_char (positive : 0 < nestMsgLen headLen bodyLen)
    (inside : nestMsgLen headLen bodyLen ≤ mem.size) :
    nestReadChar mem (u32 ((nestMsgLen headLen bodyLen : Int) - 1)) =
      some (mem.byte (nestMsgLen headLen bodyLen - 1)) := by
  have position : u32 ((nestMsgLen headLen bodyLen : Int) - 1) =
      nestMsgLen headLen bodyLen - 1 := by
    have := pkg.buffLen.toNat_lt
    unfold u32
    omega
  rw [position]
  exact if_pos (by omega)

theorem checkEtx_wrong (positive : 0 < nestMsgLen headLen bodyLen)
    (inside : nestMsgLen headLen bodyLen ≤ mem.size)
    (wrong : mem.byte (nestMsgLen headLen bodyLen - 1) ≠ nestPkgEtx) :
    ∃ errMsg, pkg.checkEtx mem headLen bodyLen = some ⟨-3, errMsg, pkg⟩ := by
  rw [checkEtx, if_neg (size_eq ▸ Nat.not_lt.2 inside), checkEtx_char size_eq positive inside]
  exact ⟨_, if_pos wrong⟩

theorem checkEtx_found (positive : 0 < nestMsgLen headLen bodyLen)
    (inside : nestMsgLen headLen bodyLen ≤ mem.size)
    (etx : mem.byte (nestMsgLen headLen bodyLen - 1) = nestPkgEtx) :
    pkg.checkEtx mem headLen bodyLen = some ⟨i32 (nestMsgLen headLen bodyLen), none, some { pkg with
      headBuff := some (mem.behind 9), headLen
      bodyBuff := some (mem.behind (9 + headLen.toNat)), bodyLen }⟩ := by
  rw [checkEtx, if_neg (size_eq ▸ Nat.not_lt.2 inside), checkEtx_char size_eq positive inside,
    ← ByteRegion.behind_behind]
  exact if_neg (not_not_intro etx)

end Check

theorem exact_of_nonpos {done : NestPkgDone} (nonpos : done.ret ≤ 0) :
    ∃ other, some done = some other ∧
      (0 < other.ret → ∃ after, other.pkg = some after ∧ after.Found mem other.ret) :=
  ⟨done, rfl, fun positive => absurd positive (Int.not_lt.2 nonpos)⟩

/-- What stands between two brackets is a packet if and only if the sum of its lengths is right. -/
theorem found_iff {headLen bodyLen : UInt32} {len : Nat} (stx : mem.byte 0 = nestPkgStx)
    (inside : len ≤ mem.size) (etx : mem.byte (len - 1) = nestPkgEtx) :
    Found mem len { pkg with
      headBuff := some (mem.behind 9), headLen
      bodyBuff := some (mem.behind (9 + headLen.toNat)), bodyLen } ↔
    nestPkgCommHeadLen + headLen.toNat + bodyLen.toNat = len := by
  refine ⟨fun found => (Nat.cast_inj.1 found.ret_eq).symm, fun len_eq => ?_⟩
  exact ⟨congrArg Nat.cast len_eq.symm, Nat.cast_le.2 inside, stx, etx, rfl, rfl⟩

end NestPkgInfo

open NestPkgInfo

/-- The check of a buffer is exact unless a wrong sum of lengths leads it to a bracket, or in front
of the buffer. -/
theorem nestProtoCheck_exact_iff {pkg : NestPkgInfo} {mem : ByteRegion}
    (buff : pkg.msgBuff = some mem) (size_eq : mem.size = pkg.buffLen.toNat) :
    pkg.CheckExact mem ↔ ¬LengthWraps mem := by
  rw [CheckExact, nestProtoCheck_eq buff]
  have size_lt := pkg.buffLen.toNat_lt
  have len_eq := frontMsgLen_eq mem
  rcases Nat.lt_or_ge mem.size 10 with short | whole
  · rw [check_short size_eq short]
    exact iff_of_true (exact_of_nonpos le_rfl) fun wrapped =>
      absurd wrapped.whole (Nat.not_le.2 short)
  rcases ne_or_eq (mem.byte 0) nestPkgStx with wrong | stx
  · obtain ⟨errMsg, eq⟩ := check_stx size_eq whole wrong
    rw [eq]
    exact iff_of_true (exact_of_nonpos (by norm_num)) fun wrapped => wrong wrapped.stx
  rw [check_lengths size_eq whole stx]
  rcases Nat.lt_or_ge mem.size (frontMsgLen mem) with wait | inside
  · rw [checkEtx_wait size_eq wait]
    refine iff_of_true (exact_of_nonpos le_rfl) fun wrapped => ?_
    rcases wrapped.misread with zero | ⟨inside, -⟩
    · omega
    · omega
  rcases Nat.eq_zero_or_pos (frontMsgLen mem) with zero | positive
  · rw [checkEtx_zero size_eq zero]
    refine iff_of_false (fun ⟨_, missing, _⟩ => by cases missing) fun exact_check => ?_
    refine exact_check ⟨whole, stx, ?_, Or.inl zero⟩
    have : 10 ≤ frontPkgLen mem := by
      unfold frontPkgLen nestPkgCommHeadLen
      omega
    omega
  rcases ne_or_eq (mem.byte (frontMsgLen mem - 1)) nestPkgEtx with wrong | etx
  · obtain ⟨errMsg, eq⟩ := checkEtx_wrong size_eq positive inside wrong
    rw [eq]
    refine iff_of_true (exact_of_nonpos (by norm_num)) ?_
    rintro ⟨-, -, -, zero | ⟨-, -, etx⟩⟩
    · omega
    · exact wrong etx
  rw [checkEtx_found size_eq positive inside etx]
  rcases Nat.lt_or_ge (frontMsgLen mem) 2147483648 with small | large
  · have ret_eq : i32 (nestMsgLen (lenAt mem nestPkgHeadLenPos) (lenAt mem nestPkgBodyLenPos)) =
        frontMsgLen mem := i32_of_lt small
    rw [ret_eq]
    constructor
    · rintro ⟨done, done_eq, found⟩ wrapped
      obtain rfl := Option.some.inj done_eq
      obtain ⟨after, after_eq, found⟩ := found (Nat.cast_pos.2 positive)
      obtain rfl := Option.some.inj after_eq
      have announced : frontPkgLen mem = frontMsgLen mem := (found_iff stx inside etx).1 found
      have := wrapped.wraps
      omega
    · intro exact_sum
      have no_wrap : frontPkgLen mem < 4294967296 := by
        by_contra wraps
        exact exact_sum ⟨whole, stx, Nat.le_of_not_lt wraps, Or.inr ⟨inside, small, etx⟩⟩
      refine ⟨_, rfl, fun _ => ⟨_, rfl, (found_iff stx inside etx).2 ?_⟩⟩
      show frontPkgLen mem = frontMsgLen mem
      omega
  · have negative : i32 (frontMsgLen mem) < 0 := by
      unfold i32
      omega
    refine iff_of_true (exact_of_nonpos negative.le) ?_
    rintro ⟨-, -, -, zero | ⟨-, small, -⟩⟩
    · omega
    · omega

/-- A buffer with the lengths 4294967286 and 0. -/
def wrappedBuffer : ByteRegion :=
  ⟨10, fun pos => [nestPkgStx, 255, 255, 255, 246, 0, 0, 0, 0, nestPkgEtx].getD pos 0⟩

/-- The sum of the lengths wraps to 0, and the check reads outside the buffer. -/
theorem nestProtoCheck_wrapped :
    nestProtoCheck (some ⟨some wrappedBuffer, 10, none, 0, none, 0⟩) = none := by
  decide

/-- A packet with a head of two bytes and a body of three, and the first byte of the next one. -/
def packetBuffer : ByteRegion :=
  ⟨16, fun pos =>
    [nestPkgStx, 0, 0, 0, 2, 0, 0, 0, 3, 8, 1, 7, 7, 7, nestPkgEtx, nestPkgStx].getD pos 0⟩

theorem nestProtoCheck_exact_packet :
    NestPkgInfo.CheckExact ⟨some packetBuffer, 16, none, 0, none, 0⟩ packetBuffer := by
  refine (nestProtoCheck_exact_iff rfl rfl).2 fun wrapped => ?_
  have no_wrap : frontPkgLen packetBuffer = 15 := by decide
  have := wrapped.wraps
  omega

/-! ## Packets in a stream -/

namespace NestPkgInfo

/-- The message buffer has these bytes. -/
def Holds (pkg : NestPkgInfo) (bytes : List UInt8) : Prop :=
  ∃ mem, pkg.msgBuff = some mem ∧ mem.size = pkg.buffLen.toNat ∧ slice mem.byte 0 mem.size = bytes

/-- The head and the body that are to be packed. -/
structure Carries (pkg : NestPkgInfo) (head body : List UInt8) : Prop where
  head_eq : ∃ mem, pkg.headBuff = some mem ∧ mem.read 0 pkg.headLen.toNat = some head
  body_eq : ∃ mem, pkg.bodyBuff = some mem ∧ mem.read 0 pkg.bodyLen.toNat = some body

variable {pkg : NestPkgInfo} {mem : ByteRegion} {head body : List UInt8} {headMem : ByteRegion}

theorem nestProtoPackPkg_eq (head_buff : pkg.headBuff = some headMem) :
    nestProtoPackPkg (some pkg) = pkg.pack headMem := by
  rw [nestProtoPackPkg, head_buff]

theorem length_of_read {region : ByteRegion} {len : Nat} {bytes : List UInt8}
    (read : region.read 0 len = some bytes) : bytes.length = len := by
  obtain ⟨-, eq⟩ := Option.ite_none_right_eq_some.1 read
  obtain rfl := Option.some.inj eq
  exact length_slice ..

theorem packParts_eq {cells : Nat → UInt8} {size : Nat} {front : List UInt8}
    (front_len : front.length = 9) (head_buff : pkg.headBuff = some headMem)
    (carries : pkg.Carries head body) (fits : 10 + head.length + body.length ≤ size)
    (len_eq : nestMsgLen pkg.headLen pkg.bodyLen = 10 + head.length + body.length) :
    pkg.packParts ⟨size, splice cells 0 front⟩ headMem =
      some ⟨size, splice cells 0 (front ++ head ++ body ++ [nestPkgEtx])⟩ := by
  obtain ⟨⟨same, same_eq, head_read⟩, bodyMem, body_buff, body_read⟩ := carries
  cases same_eq.symm.trans head_buff
  have head_len := length_of_read head_read
  have body_len := length_of_read body_read
  have behind_len : (front ++ head).length = 9 + head.length := by
    rw [List.length_append, front_len]
  have last_len : (front ++ head ++ body).length = 9 + head.length + body.length := by
    rw [List.length_append, behind_len]
  have write_head : (ByteRegion.mk size (splice cells 0 front)).write nestPkgHeadBuffPos head =
      some ⟨size, splice cells 0 (front ++ head)⟩ :=
    ByteRegion.write_next front_len.symm (by omega)
  have write_body : (ByteRegion.mk size (splice cells 0 (front ++ head))).write
      (nestPkgHeadBuffPos + pkg.headLen.toNat) body =
        some ⟨size, splice cells 0 (front ++ head ++ body)⟩ := by
    refine ByteRegion.write_next ?_ (by omega)
    rw [behind_len, head_len]
    rfl
  have write_etx : (ByteRegion.mk size (splice cells 0 (front ++ head ++ body))).write
      (nestMsgLen pkg.headLen pkg.bodyLen - 1) [nestPkgEtx] =
        some ⟨size, splice cells 0 (front ++ head ++ body ++ [nestPkgEtx])⟩ := by
    refine ByteRegion.write_next (by omega) ?_
    rw [last_len, List.length_singleton]
    omega
  have no_zero : nestMsgLen pkg.headLen pkg.bodyLen ≠ 0 := by omega
  simp only [packParts, head_read, write_head, body_buff, Option.bind_eq_bind, Option.bind_some]
  rcases Nat.eq_zero_or_pos pkg.bodyLen.toNat with empty | some_bytes
  · have body_nil : body = [] := List.length_eq_zero_iff.1 (body_len.trans empty)
    rw [body_nil, List.append_nil] at write_etx ⊢
    rw [if_neg (by omega), if_neg no_zero, write_etx]
  · rw [if_pos some_bytes, body_read, Option.bind_some, write_body, Option.bind_some,
      if_neg no_zero, write_etx]

/-- The bytes before the head. -/
def prelude (headLen bodyLen : UInt32) : List UInt8 :=
  [nestPkgStx] ++ wordBytes (htonl headLen) ++ wordBytes (htonl bodyLen)

theorem pack_eq (buff : pkg.msgBuff = some mem) (head_buff : pkg.headBuff = some headMem)
    (carries : pkg.Carries head body) (room : 10 + head.length + body.length ≤ pkg.buffLen.toNat)
    (size_le : pkg.buffLen.toNat ≤ mem.size)
    (len_eq : nestMsgLen pkg.headLen pkg.bodyLen = 10 + head.length + body.length) :
    pkg.pack headMem = some ⟨i32 (10 + head.length + body.length : Nat), none, some { pkg with
      msgBuff := some ⟨mem.size, splice mem.byte 0
        (prelude pkg.headLen pkg.bodyLen ++ head ++ body ++ [nestPkgEtx])⟩ }⟩ := by
  have write_stx : mem.write 0 [nestPkgStx] = some ⟨mem.size, splice mem.byte 0 [nestPkgStx]⟩ :=
    ByteRegion.write_eq (show 0 + 1 ≤ mem.size by omega)
  have write_head : (ByteRegion.mk mem.size (splice mem.byte 0 [nestPkgStx])).write
      nestPkgHeadLenPos (wordBytes (htonl pkg.headLen)) =
        some ⟨mem.size, splice mem.byte 0 ([nestPkgStx] ++ wordBytes (htonl pkg.headLen))⟩ :=
    ByteRegion.write_next rfl (show 1 + 4 ≤ mem.size by omega)
  have write_body : (ByteRegion.mk mem.size
        (splice mem.byte 0 ([nestPkgStx] ++ wordBytes (htonl pkg.headLen)))).write
      nestPkgBodyLenPos (wordBytes (htonl pkg.bodyLen)) =
        some ⟨mem.size, splice mem.byte 0 (prelude pkg.headLen pkg.bodyLen)⟩ :=
    ByteRegion.write_next rfl (show 5 + 4 ≤ mem.size by omega)
  rw [pack, len_eq, if_neg (Nat.not_lt.2 room)]
  simp only [buff, write_stx, write_head, write_body, Option.bind_eq_bind, Option.bind_some]
  rw [packParts_eq rfl head_buff carries (room.trans size_le) len_eq]
  rfl

/-- A packet stands in memory. -/
structure Packet (mem : ByteRegion) (headLen bodyLen : UInt32) (head body : List UInt8) : Prop where
  stx : mem.byte 0 = nestPkgStx
  headLen_eq : lenAt mem nestPkgHeadLenPos = headLen
  bodyLen_eq : lenAt mem nestPkgBodyLenPos = bodyLen
  head_eq : slice mem.byte 9 head.length = head
  body_eq : slice mem.byte (9 + head.length) body.length = body
  etx : mem.byte (9 + head.length + body.length) = nestPkgEtx

theorem packet_splice (cells : Nat → UInt8) (size : Nat) (headLen bodyLen : UInt32)
    (head body : List UInt8) :
    Packet ⟨size, splice cells 0 (prelude headLen bodyLen ++ head ++ body ++ [nestPkgEtx])⟩ headLen
      bodyLen head body := by
  have word_eq : ∀ word : UInt32, ntohl (readWord (wordBytes (htonl word))) = word := by
    intro word
    have read_eq := readWord_wordBytes_append (htonl word) []
    rw [List.append_nil] at read_eq
    rw [read_eq]
    exact byteSwap_byteSwap word
  simp only [prelude, List.append_assoc]
  constructor
  · exact List.head_eq_of_cons_eq (slice_splice_middle cells [] [nestPkgStx]
      (wordBytes (htonl headLen) ++
        (wordBytes (htonl bodyLen) ++ (head ++ (body ++ [nestPkgEtx])))))
  · have len := slice_splice_middle cells [nestPkgStx] (wordBytes (htonl headLen))
      (wordBytes (htonl bodyLen) ++ (head ++ (body ++ [nestPkgEtx])))
    exact (congrArg (fun bytes => ntohl (readWord bytes)) len).trans (word_eq headLen)
  · have len := slice_splice_middle cells ([nestPkgStx] ++ wordBytes (htonl headLen))
      (wordBytes (htonl bodyLen)) (head ++ (body ++ [nestPkgEtx]))
    rw [List.append_assoc] at len
    exact (congrArg (fun bytes => ntohl (readWord bytes)) len).trans (word_eq bodyLen)
  · have part := slice_splice_middle cells (prelude headLen bodyLen) head (body ++ [nestPkgEtx])
    simp only [prelude, List.append_assoc] at part
    exact part
  · have part := slice_splice_middle cells (prelude headLen bodyLen ++ head) body [nestPkgEtx]
    have front_len : (prelude headLen bodyLen ++ head).length = 9 + head.length :=
      List.length_append
    rw [front_len] at part
    simp only [prelude, List.append_assoc] at part
    exact part
  · have part := slice_splice_middle cells (prelude headLen bodyLen ++ head ++ body) [nestPkgEtx] []
    have front_len : (prelude headLen bodyLen ++ head ++ body).length =
        9 + head.length + body.length := by
      rw [List.length_append, List.length_append]
      rfl
    rw [front_len, List.append_nil] at part
    simp only [prelude, List.append_assoc] at part
    exact List.head_eq_of_cons_eq part

section Packet

variable {packed : ByteRegion} {stream : NestPkgInfo} {headLen bodyLen : UInt32} {count : Nat}
  (packet : Packet packed headLen bodyLen head body)
  (len_eq : nestMsgLen headLen bodyLen = 10 + head.length + body.length)

include packet

theorem Packet.lengths (whole : 10 ≤ count)
    (same : slice mem.byte 0 count = slice packed.byte 0 count) :
    mem.byte 0 = nestPkgStx ∧ lenAt mem nestPkgHeadLenPos = headLen ∧
      lenAt mem nestPkgBodyLenPos = bodyLen := by
  have agree : ∀ index < count, mem.byte index = packed.byte index :=
    fun index inside => cell_eq_of_slice_eq same inside
  have len : ∀ pos ≤ 6, lenAt mem pos = lenAt packed pos := by
    intro pos inside
    exact congrArg (fun bytes => ntohl (readWord bytes))
      (slice_congr fun index _ => agree (pos + index) (by omega))
  exact ⟨(agree 0 (by omega)).trans packet.stx, (len _ (by decide)).trans packet.headLen_eq,
    (len _ (by decide)).trans packet.bodyLen_eq⟩

include len_eq

theorem Packet.check_part (part : count < 10 + head.length + body.length)
    (holds : stream.Holds (slice packed.byte 0 count)) :
    nestProtoCheck (some stream) = some ⟨0, none, stream⟩ := by
  obtain ⟨mem, buff, size_eq, bytes_eq⟩ := holds
  have count_eq : mem.size = count := by
    rw [← length_slice mem.byte 0 mem.size, bytes_eq, length_slice]
  rw [nestProtoCheck_eq buff]
  rcases Nat.lt_or_ge mem.size 10 with short | whole
  · exact check_short size_eq short
  · obtain ⟨stx, headLen_eq, bodyLen_eq⟩ :=
      packet.lengths (count_eq ▸ whole) (count_eq ▸ bytes_eq)
    rw [check_lengths size_eq whole stx, headLen_eq, bodyLen_eq]
    exact checkEtx_wait size_eq (by omega)

theorem Packet.check_whole (head_len : head.length = headLen.toNat)
    (body_len : body.length = bodyLen.toNat) {rest : List UInt8}
    (holds : stream.Holds (slice packed.byte 0 (10 + head.length + body.length) ++ rest)) :
    ∃ after : NestPkgInfo, nestProtoCheck (some stream) =
        some ⟨i32 (10 + head.length + body.length : Nat), none, after⟩ ∧
      after.Carries head body := by
  obtain ⟨mem, buff, size_eq, bytes_eq⟩ := holds
  have size_sum : mem.size = 10 + head.length + body.length + rest.length := by
    rw [← length_slice mem.byte 0 mem.size, bytes_eq, List.length_append, length_slice]
  have same : slice mem.byte 0 (10 + head.length + body.length) =
      slice packed.byte 0 (10 + head.length + body.length) := by
    rw [size_sum, slice_add] at bytes_eq
    exact (List.append_inj bytes_eq (by rw [length_slice, length_slice])).1
  have agree : ∀ index < 10 + head.length + body.length, mem.byte index = packed.byte index :=
    fun index inside => cell_eq_of_slice_eq same inside
  obtain ⟨stx, headLen_eq, bodyLen_eq⟩ := packet.lengths (by omega) same
  have etx : mem.byte (nestMsgLen headLen bodyLen - 1) = nestPkgEtx := by
    have position : nestMsgLen headLen bodyLen - 1 = 9 + head.length + body.length := by omega
    rw [position, agree _ (by omega), packet.etx]
  rw [nestProtoCheck_eq buff, check_lengths size_eq (by omega) stx, headLen_eq, bodyLen_eq,
    checkEtx_found size_eq (by omega) (by omega) etx, len_eq]
  refine ⟨_, rfl, ⟨_, rfl, ?_⟩, ⟨_, rfl, ?_⟩⟩
  · rw [← head_len, ByteRegion.behind_read (by omega),
      slice_congr fun index inside => agree (9 + index) (by omega), packet.head_eq]
  · rw [← head_len, ← body_len, ByteRegion.behind_read (by omega),
      slice_congr fun index inside => agree (9 + head.length + index) (by omega), packet.body_eq]

end Packet

end NestPkgInfo

/-- What `NestProtoPackPkg` makes of a head and a body, `NestProtoCheck` finds at the front of every
stream that begins with it, and it waits while a byte of it is missing. -/
theorem nestProtoCheck_nestProtoPackPkg {pkg : NestPkgInfo} {mem : ByteRegion}
    {head body : List UInt8} (buff : pkg.msgBuff = some mem) (carries : pkg.Carries head body)
    (room : 10 + head.length + body.length ≤ pkg.buffLen.toNat)
    (size_le : pkg.buffLen.toNat ≤ mem.size)
    (small : 10 + head.length + body.length < 2147483648) :
    ∃ packed : ByteRegion,
      nestProtoPackPkg (some pkg) = some ⟨(10 + head.length + body.length : Nat), none,
        some { pkg with msgBuff := some packed }⟩ ∧
      (∀ (stream : NestPkgInfo) (rest : List UInt8),
        stream.Holds (slice packed.byte 0 (10 + head.length + body.length) ++ rest) →
          ∃ after : NestPkgInfo, nestProtoCheck (some stream) =
              some ⟨(10 + head.length + body.length : Nat), none, after⟩ ∧
            after.Carries head body) ∧
      ∀ (stream : NestPkgInfo) (count : Nat), count < 10 + head.length + body.length →
        stream.Holds (slice packed.byte 0 count) →
          nestProtoCheck (some stream) = some ⟨0, none, stream⟩ := by
  obtain ⟨headMem, head_buff, head_read⟩ := carries.head_eq
  obtain ⟨bodyMem, -, body_read⟩ := carries.body_eq
  have head_len := length_of_read head_read
  have body_len := length_of_read body_read
  have len_eq : nestMsgLen pkg.headLen pkg.bodyLen = 10 + head.length + body.length := by
    rw [head_len, body_len] at small ⊢
    unfold nestMsgLen nestPkgCommHeadLen u32
    omega
  obtain ⟨packed, pack_eq, packet⟩ : ∃ packed : ByteRegion, pkg.pack headMem =
        some ⟨i32 (10 + head.length + body.length : Nat), none,
          some { pkg with msgBuff := some packed }⟩ ∧
      Packet packed pkg.headLen pkg.bodyLen head body :=
    ⟨_, pack_eq buff head_buff carries room size_le len_eq,
      packet_splice mem.byte mem.size pkg.headLen pkg.bodyLen head body⟩
  rw [← i32_of_lt small]
  refine ⟨packed, ?_, fun stream rest holds => ?_, fun stream count part holds => ?_⟩
  · exact (nestProtoPackPkg_eq head_buff).trans pack_eq
  · exact packet.check_whole len_eq head_len body_len holds
  · exact packet.check_part len_eq part holds

/-- A package with a head and a body of one byte, and a buffer of 16 bytes. -/
def samplePkg : NestPkgInfo :=
  ⟨some ⟨16, fun _ => 0⟩, 16, some ⟨1, fun _ => 7⟩, 1, some ⟨1, fun _ => 8⟩, 1⟩

theorem nestProtoCheck_nestProtoPackPkg_sample :
    ∃ packed : ByteRegion,
      nestProtoPackPkg (some samplePkg) =
        some ⟨12, none, some { samplePkg with msgBuff := some packed }⟩ ∧
      ∀ stream : NestPkgInfo, stream.Holds (slice packed.byte 0 11) →
        nestProtoCheck (some stream) = some ⟨0, none, stream⟩ := by
  obtain ⟨packed, pack_eq, -, part⟩ := nestProtoCheck_nestProtoPackPkg
    (show samplePkg.msgBuff = some ⟨16, fun _ => 0⟩ from rfl)
    (show samplePkg.Carries [7] [8] from ⟨⟨_, rfl, rfl⟩, ⟨_, rfl, rfl⟩⟩) (by decide) (by decide)
    (by decide)
  exact ⟨packed, pack_eq, fun stream holds => part stream 11 (by decide) holds⟩

end Spp
