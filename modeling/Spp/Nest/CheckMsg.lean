import Spp.Nest.ChannelRecv

/-!
# Messages of any peer

`CheckMsg` compares the lengths of a header with each other and with the bytes that there are, but
not with the size of a header, so a header may announce a message that ends inside it.
-/

namespace Spp

open TNetCommuHead (size)

/-- The header at the front of some bytes, in host order. -/
def frontHead (bytes : List UInt8) : TNetCommuHead := (TNetCommuHead.ofBytes bytes).ntoh

/-- The bytes begin with a whole header whose magic number and check word are right. -/
structure Announced (bytes : List UInt8) : Prop where
  whole : size ≤ bytes.length
  magic : (frontHead bytes).magicNum = nestMagicNum
  crc : (frontHead bytes).checkCrc = true

/-- The message at the front of some bytes has not arrived as a whole. -/
def Incomplete (bytes : List UInt8) : Prop :=
  bytes.length < size ∨ bytes.length < (frontHead bytes).msgLen.toNat

/-- What `CheckMsg` accepts can be taken apart, and it waits for what is missing alone. -/
structure Decodable (bytes : List UInt8) : Prop where
  framed : 0 < (checkMsg bytes).ret → size ≤ (checkMsg bytes).head.headLen.toNat ∧
    ((checkMsg bytes).head.headLen.toNat : Int) ≤ (checkMsg bytes).ret ∧
    (checkMsg bytes).ret ≤ bytes.length
  waits : (checkMsg bytes).ret = 0 → bytes.length < (frontHead bytes).msgLen.toNat

/-- If the lengths of the header are in order and its message is there, with a length that is an
`int32_t`, then `head_len` is not below the size of a header. -/
def HeadCovered (bytes : List UInt8) : Prop :=
  (frontHead bytes).headLen.toNat ≤ (frontHead bytes).msgLen.toNat →
    (frontHead bytes).msgLen.toNat ≤ bytes.length →
    (frontHead bytes).msgLen.toNat < 2147483648 → size ≤ (frontHead bytes).headLen.toNat

/-- Messages one behind the other at the front of some bytes, each with its body behind its header,
and the bytes that are left. -/
inductive Framed : List UInt8 → List HandledMsg → List UInt8 → Prop where
  | nil (bytes : List UInt8) : Framed bytes [] bytes
  | cons {bytes rest : List UInt8} {handled : List HandledMsg}
      (header : size ≤ (frontHead bytes).headLen.toNat)
      (body : (frontHead bytes).headLen.toNat ≤ (frontHead bytes).msgLen.toNat)
      (whole : (frontHead bytes).msgLen.toNat ≤ bytes.length)
      (behind : Framed (bytes.drop (frontHead bytes).msgLen.toNat) handled rest) :
      Framed bytes (⟨frontHead bytes, (bytes.take (frontHead bytes).msgLen.toNat).drop
        (frontHead bytes).headLen.toNat⟩ :: handled) rest

variable {bytes rest : List UInt8}

theorem Framed.length_le {handled : List HandledMsg} (framed : Framed bytes handled rest) :
    rest.length ≤ bytes.length := by
  induction framed with
  | nil bytes => exact le_rfl
  | cons header body whole behind induction =>
      rw [List.length_drop] at induction
      omega

/-! ## One message -/

section One

theorem checkMsg_announced (announced : Announced bytes) :
    checkMsg bytes =
      if bytes.length < (frontHead bytes).msgLen.toNat then ⟨0, frontHead bytes⟩
      else if (frontHead bytes).headLen.toNat > (frontHead bytes).msgLen.toNat then
        ⟨-2, frontHead bytes⟩
      else ⟨i32 (frontHead bytes).msgLen.toNat, frontHead bytes⟩ := by
  have magic := announced.magic
  have crc := announced.crc
  rw [frontHead] at magic crc
  rw [checkMsg, if_neg (not_lt.mpr announced.whole)]
  simp only [magic, crc, ne_eq, not_true_eq_false, if_false, Bool.not_true, Bool.false_eq_true,
    gt_iff_lt, UInt32.lt_iff_toNat_lt]
  rfl

/-- `CheckMsg` gives a negative number or waits if the bytes do not begin with a header. -/
theorem checkMsg_unannounced (not_announced : ¬Announced bytes) :
    (checkMsg bytes).ret < 0 ∨ (checkMsg bytes).ret = 0 ∧ bytes.length < size := by
  by_cases short : bytes.length < size
  · exact Or.inr ⟨by rw [checkMsg, if_pos short], short⟩
  · refine Or.inl ?_
    rw [checkMsg, if_neg short]
    dsimp only
    by_cases magic : (frontHead bytes).magicNum = nestMagicNum
    · have crc : (frontHead bytes).checkCrc = false :=
        Bool.eq_false_of_not_eq_true fun crc => not_announced ⟨not_lt.mp short, magic, crc⟩
      rw [frontHead] at magic crc
      rw [if_neg (not_not_intro magic), crc]
      exact show (-11 : Int) < 0 by decide
    · rw [frontHead] at magic
      rw [if_pos magic]
      exact show (-1 : Int) < 0 by decide

theorem checkMsg_cases (covered : Announced bytes → HeadCovered bytes) :
    (checkMsg bytes).ret < 0 ∨ (checkMsg bytes).ret = 0 ∧ Incomplete bytes ∨
      checkMsg bytes = ⟨(frontHead bytes).msgLen.toNat, frontHead bytes⟩ ∧
        size ≤ (frontHead bytes).headLen.toNat ∧
        (frontHead bytes).headLen.toNat ≤ (frontHead bytes).msgLen.toNat ∧
        (frontHead bytes).msgLen.toNat ≤ bytes.length := by
  by_cases announced : Announced bytes
  · have covered := covered announced
    rw [HeadCovered] at covered
    have bound := (frontHead bytes).msgLen.toNat_lt
    rw [checkMsg_announced announced]
    split
    · rename_i missing
      exact Or.inr (Or.inl ⟨rfl, Or.inr missing⟩)
    · split
      · exact Or.inl (show (-2 : Int) < 0 by decide)
      · by_cases small : (frontHead bytes).msgLen.toNat < 2147483648
        · rw [i32_of_lt small]
          exact Or.inr (Or.inr ⟨rfl, covered (by omega) (by omega) small, by omega, by omega⟩)
        · refine Or.inl ?_
          dsimp only
          unfold i32
          omega
  · obtain negative | ⟨zero, short⟩ := checkMsg_unannounced announced
    · exact Or.inl negative
    · exact Or.inr (Or.inl ⟨zero, Or.inl short⟩)

theorem decodable_iff (announced : Announced bytes) : Decodable bytes ↔ HeadCovered bytes := by
  have size_eq : size = 48 := rfl
  constructor
  · rintro ⟨framed, waits⟩ head_le msg_le small
    rw [checkMsg_announced announced, if_neg (by omega), if_neg (by omega), i32_of_lt small]
      at framed waits
    dsimp only at framed waits
    by_cases empty : (frontHead bytes).msgLen.toNat = 0
    · have := waits (by omega)
      omega
    · exact (framed (by omega)).1
  · intro covered
    obtain negative | ⟨zero, incomplete⟩ | ⟨found, header, body, whole⟩ :=
      checkMsg_cases fun _ => covered
    · exact ⟨fun positive => by omega, fun zero => by omega⟩
    · refine ⟨fun positive => by omega, fun _ => ?_⟩
      exact incomplete.resolve_left (not_lt.mpr announced.whole)
    · constructor
      · rw [found]
        exact fun _ => ⟨header, Int.ofNat_le.mpr body, Int.ofNat_le.mpr whole⟩
      · rw [found]
        intro zero
        dsimp only at zero
        omega

end One

/-! ## All messages -/

theorem doRecvLoop_framed (block : Bool) {rounds processLen : Nat}
    (covered : ∀ new rest, Framed bytes new rest → Announced rest → HeadCovered rest)
    (enough : bytes.length < rounds) (small : processLen + bytes.length < 2147483648)
    (handled : List HandledMsg) :
    ∃ processed new rest, doRecvLoop block rounds bytes processLen handled = some processed ∧
      Framed bytes new rest ∧ processed.handled = handled ++ new ∧
      (processed.ret < 0 ∨ processed.ret = (processLen + (bytes.length - rest.length) : Nat) ∧
        (block = true → Incomplete rest)) := by
  induction rounds generalizing processLen bytes handled with
  | zero => exact absurd enough (Nat.not_lt_zero _)
  | succ rounds induction =>
      rw [doRecvLoop]
      obtain negative | ⟨zero, incomplete⟩ | ⟨found, header, body, whole⟩ :=
        checkMsg_cases (covered [] bytes (.nil bytes))
      · refine ⟨⟨(checkMsg bytes).ret, handled⟩, [], bytes, if_pos negative, .nil bytes,
          (List.append_nil _).symm, Or.inl negative⟩
      · refine ⟨⟨processLen, handled⟩, [], bytes, ?_, .nil bytes, (List.append_nil _).symm,
          Or.inr ⟨?_, fun _ => incomplete⟩⟩
        · rw [zero]
          rfl
        · rw [Nat.sub_self]
          rfl
      · generalize msg_eq : (frontHead bytes).msgLen.toNat = msgLen at found body whole
        have size_eq : size = 48 := rfl
        have sum_eq : int32 ((processLen : Int) + msgLen) =
            some ((processLen + msgLen : Nat) : Int) := by
          rw [← Nat.cast_add, int32_of_nat (by omega)]
        have one : ∀ {new rest}, Framed (bytes.drop msgLen) new rest →
            Framed bytes ((checkMsg bytes).handle bytes :: new) rest := by
          intro new rest behind
          rw [found, CheckedMsg.handle]
          dsimp only
          rw [Int.toNat_natCast, ← msg_eq]
          exact Framed.cons header (by omega) (by omega) (by rwa [msg_eq])
        rw [found] at one ⊢
        dsimp only at one ⊢
        rw [if_neg (by omega), if_neg (by omega), sum_eq, Option.bind_some, Int.toNat_natCast]
        cases block with
        | false =>
            refine ⟨⟨((processLen + msgLen : Nat) : Int), handled ++
              [CheckedMsg.handle ⟨(msgLen : Int), frontHead bytes⟩ bytes]⟩, _, bytes.drop msgLen,
              rfl, one (.nil _), rfl, Or.inr ⟨?_, fun wrong => absurd wrong (by decide)⟩⟩
            rw [List.length_drop]
            dsimp only
            omega
        | true =>
            have length_eq : (bytes.drop msgLen).length = bytes.length - msgLen := List.length_drop
            obtain ⟨processed, new, rest, loops, framed, handled_eq, result⟩ := induction
              (fun new rest framed => covered _ rest (one framed))
              (show (bytes.drop msgLen).length < rounds by omega)
              (show processLen + msgLen + (bytes.drop msgLen).length < 2147483648 by omega)
              (handled ++ [CheckedMsg.handle ⟨(msgLen : Int), frontHead bytes⟩ bytes])
            have left := framed.length_le
            refine ⟨processed, _, rest, loops, one framed, ?_, ?_⟩
            · rw [handled_eq, List.append_assoc]
              rfl
            · refine result.imp_right (And.imp_left fun ret_eq => ?_)
              rw [ret_eq]
              omega

/-- Behind a header with the right magic number and check word, `CheckMsg` accepts only what can be
taken apart if and only if `head_len` covers the header.  If it does so at every message, the
messages that `DoRecvCache` handles are one behind the other, and it stops where one is invalid or
not complete. -/
theorem checkMsg_decodable_iff (bytes : List UInt8) :
    (Announced bytes → (Decodable bytes ↔ HeadCovered bytes)) ∧
    ((∀ new rest, Framed bytes new rest → Announced rest → HeadCovered rest) →
      bytes.length < 2147483648 → ∀ block, ∃ processed rest,
        doRecvCache bytes block = some processed ∧ Framed bytes processed.handled rest ∧
        (processed.ret < 0 ∨ processed.ret = (bytes.length - rest.length : Nat) ∧
          (block = true → Incomplete rest))) := by
  refine ⟨decodable_iff, fun covered small block => ?_⟩
  obtain ⟨processed, new, rest, loops, framed, handled_eq, result⟩ :=
    doRecvLoop_framed block covered (Nat.lt_succ_self _)
      (show 0 + bytes.length < 2147483648 by rwa [Nat.zero_add]) []
  rw [List.nil_append] at handled_eq
  rw [Nat.zero_add] at result
  exact ⟨processed, rest, loops, by rwa [handled_eq], result⟩

/-! ## Some peers -/

theorem frontHead_append (head : TNetCommuHead) (rest : List UInt8) :
    frontHead (head.hton.bytes ++ rest) = head := by
  rw [frontHead, TNetCommuHead.ofBytes_bytes_append, TNetCommuHead.ntoh_hton]

theorem announced_append {head : TNetCommuHead} (magic : head.magicNum = nestMagicNum)
    (crc : head.checkCrc = true) (rest : List UInt8) : Announced (head.hton.bytes ++ rest) where
  whole := by
    rw [List.length_append, TNetCommuHead.length_bytes]
    exact Nat.le_add_right _ _
  magic := by rwa [frontHead_append]
  crc := by rwa [frontHead_append]

theorem Framed.eq_nil {new : List HandledMsg} (framed : Framed [] new rest) : rest = [] := by
  cases framed with
  | nil => rfl
  | cons header body whole =>
      have size_eq : size = 48 := rfl
      rw [List.length_nil] at whole
      omega

/-- A heartbeat. -/
def heartbeatBytes : List UInt8 := (NestSent.heartbeat 1).head.hton.bytes ++ []

theorem checkMsg_decodable_heartbeat :
    Decodable heartbeatBytes ∧ ∃ processed rest, doRecvCache heartbeatBytes true = some processed ∧
      Framed heartbeatBytes processed.handled rest ∧ (processed.ret < 0 ∨
        processed.ret = (heartbeatBytes.length - rest.length : Nat) ∧
          (true = true → Incomplete rest)) := by
  have front : frontHead heartbeatBytes = (NestSent.heartbeat 1).head := frontHead_append _ []
  have announced : Announced heartbeatBytes :=
    announced_append rfl (TNetCommuHead.checkCrc_withCrc _) []
  have covered : HeadCovered heartbeatBytes := by
    intro _ _ _
    rw [front]
    decide
  refine ⟨((checkMsg_decodable_iff heartbeatBytes).1 announced).mpr covered,
    (checkMsg_decodable_iff heartbeatBytes).2 (fun new rest framed at_rest => ?_) (by decide) true⟩
  cases framed with
  | nil => exact covered
  | cons header body whole behind =>
      have ended : heartbeatBytes.drop (frontHead heartbeatBytes).msgLen.toNat = [] := by
        rw [front]
        decide
      rw [ended] at behind
      rw [behind.eq_nil] at at_rest
      exact absurd at_rest.whole (by decide)

/-- A header with the right magic number and check word, and with `head_len` 0. -/
def bareHead (msgLen : UInt32) : TNetCommuHead :=
  { TNetCommuHead.zero with magicNum := nestMagicNum, msgLen }.withCrc

theorem announced_bareHead (msgLen : UInt32) (rest : List UInt8) :
    Announced ((bareHead msgLen).hton.bytes ++ rest) :=
  announced_append rfl (TNetCommuHead.checkCrc_withCrc _) rest

theorem checkMsg_bareHead {msgLen : UInt32} (short : msgLen.toNat ≤ size) (rest : List UInt8) :
    checkMsg ((bareHead msgLen).hton.bytes ++ rest) = ⟨msgLen.toNat, bareHead msgLen⟩ := by
  have msg_eq : (bareHead msgLen).msgLen = msgLen := rfl
  have head_eq : (bareHead msgLen).headLen.toNat = 0 := rfl
  have size_eq : size = 48 := rfl
  rw [checkMsg_announced (announced_bareHead msgLen rest), frontHead_append, List.length_append,
    TNetCommuHead.length_bytes, msg_eq, head_eq, if_neg (by omega), if_neg (Nat.not_lt_zero _),
    i32_of_lt (by omega)]

/-- An empty message makes `CheckMsg` wait, however many bytes follow; a message of one byte is
handled with a byte of the header as its body. -/
theorem checkMsg_not_decodable :
    (∀ rest, Announced ((bareHead 0).hton.bytes ++ rest) ∧
      (checkMsg ((bareHead 0).hton.bytes ++ rest)).ret = 0 ∧
      (frontHead ((bareHead 0).hton.bytes ++ rest)).msgLen = 0) ∧
    Announced ((bareHead 1).hton.bytes ++ []) ∧
    (checkMsg ((bareHead 1).hton.bytes ++ [])).ret = 1 ∧
    (checkMsg ((bareHead 1).hton.bytes ++ [])).head.headLen = 0 := by
  refine ⟨fun rest => ⟨announced_bareHead 0 rest, ?_, ?_⟩, announced_bareHead 1 [], ?_, ?_⟩
  · rw [checkMsg_bareHead (by decide)]
    rfl
  · rw [frontHead_append]
    rfl
  · rw [checkMsg_bareHead (by decide)]
    rfl
  · rw [checkMsg_bareHead (by decide)]
    rfl

end Spp
