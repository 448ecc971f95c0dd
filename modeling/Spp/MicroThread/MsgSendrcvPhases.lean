import Spp.MicroThread.MsgSendrcvRounds

/-!
# The phases of `mt_msg_sendrcv`

What is known of an action while the sockets are opened (`InOpen`), the requests are sent
(`InSend`) and the responses are received (`InRecv`).
-/

namespace Spp.MsgSendrcv

namespace Request

/-- A packet was received. -/
def Received (req : Request) : Prop := ∃ ret, 0 < ret ∧ .input ret ∈ req.trace

/-- The request was sent, or it was tried. -/
def Tried (req : Request) : Prop := ∃ count ret, .send count ret ∈ req.trace

/-- The next round ends the sending. -/
def Completes (req : Request) (tick : Nat) : Prop :=
  ∃ conn, req.action.conn = some conn ∧ (req.sendData conn tick).1 ≠ -1 ∧
    (req.sendData conn tick).1 ≠ 0

/-- No byte was sent. -/
def Unsent (req : Request) : Prop := ∀ count ret, .send count ret ∈ req.trace → count = 0

end Request

/-- An event before the last phase. -/
def ActionEvent.Early : ActionEvent → Prop
  | .opened => True
  | .send _ _ => True
  | .input _ => True
  | _ => False

/-- A request while connections are opened. -/
structure InOpen (clean : Prop) (req : Request) : Prop where
  ready : req.Ready
  trace : ∀ event ∈ req.trace, event = .opened
  flag : req.Live → req.action.flag = .flagInit ∨ req.action.flag = .flagOpen
  dead : clean → ¬ req.Live → req.action.flag ≠ .flagFin
  opened : .opened ∈ req.trace → mtMultiOpen.Done req
  counted : ∀ conn buff, req.action.conn = some conn → conn.msgBuff = some buff → buff.sendLen = 0

/-- A request while requests are sent. -/
structure InSend (clean : Prop) (req : Request) : Prop where
  ready : req.Ready
  trace : ∀ event ∈ req.trace, event = .opened ∨ ∃ count ret, event = .send count ret
  flag : req.Live → req.action.flag = .flagOpen ∨ req.action.flag = .flagSend
  dead : clean → ¬ req.Live → req.action.flag ≠ .flagFin
  opened : .opened ∈ req.trace → req.Tried ∨ mtMultiOpen.Done req
  counted : ∀ conn buff, req.action.conn = some conn → conn.msgBuff = some buff →
    conn.type = .objTcpKeep → 0 < buff.sendLen → ¬ req.Unsent

/-- A request while packets are received. -/
structure InRecv (clean : Prop) (req : Request) : Prop where
  ready : req.Ready
  trace : ∀ event ∈ req.trace, event.Early
  flag : req.Live → req.action.flag = .flagSend ∨ req.action.flag = .flagFin
  dead : clean → ¬ req.Live → req.action.flag ≠ .flagFin
  opened : .opened ∈ req.trace → req.Tried
  received : req.Received → mtMultiRecvfrom.Done req
  done : req.action.connObjType ≠ .objUdpSession → mtMultiRecvfrom.Done req → req.Received

variable {err : MultiError}

section Phases

variable {clean : Prop} {req : Request} {conn : IMtConnection} {buff : MtMsgBuf} {tick : Nat}

theorem setMtMsgBuff_self (found : req.action.conn = some conn)
    (has_buff : conn.msgBuff = some buff) :
    req.setMtMsgBuff conn buff = req := by
  rw [Request.setMtMsgBuff, Request.setIConnection, ← has_buff, ← found]

theorem not_live_setErrno (is_error : err ≠ .errNone) :
    ¬ (req.setErrno err).Live := is_error

/-! ## Opening -/

theorem InOpen.fail (inOpen : InOpen clean req) (live : req.Live)
    (waits : req.action.flag ≠ .flagOpen) (is_error : err ≠ .errNone) :
    InOpen clean (req.setErrno err) := by
  have flag_eq : req.action.flag = .flagInit := (inOpen.flag live).resolve_right waits
  refine ⟨inOpen.ready, inOpen.trace, fun live => absurd live (not_live_setErrno is_error), ?_, ?_,
    inOpen.counted⟩
  · intro _ _
    show req.action.flag ≠ _
    rw [flag_eq]
    decide
  · intro opened
    exact absurd (inOpen.opened opened).2 waits

theorem InOpen.connect (inOpen : InOpen clean req) (live : req.Live) :
    InOpen clean ((req.setMsgFlag .flagOpen).record .opened) := by
  have trace := List.forall_mem_append.2 ⟨inOpen.trace, List.forall_mem_singleton.2 rfl⟩
  exact ⟨inOpen.ready, trace, fun _ => Or.inr rfl, fun _ dead => absurd live dead,
    fun _ => ⟨live, rfl⟩, inOpen.counted⟩

/-- What a round of `mt_multi_open` does to it. -/
structure OpenTry (clean : Prop) (req : Request) (entry : Request × Bool) : Prop where
  inOpen : InOpen clean entry.1
  waits : entry.2 = true → entry.1.Live ∧ entry.1.action.flag ≠ .flagOpen
  finished : entry.2 = false → entry.1.Live → entry.1.action.flag = .flagOpen
  sort_eq : entry.1.sort = req.sort

theorem InOpen.tryOne (inOpen : InOpen clean req) :
    OpenTry clean req (mtMultiOpen.tryOne tick req) := by
  by_cases live : req.Live
  · by_cases done : req.action.flag = .flagOpen
    · rw [tryOne_of_done done]
      exact ⟨inOpen, by simp, fun _ _ => done, rfl⟩
    · obtain ⟨conn, -, found, -⟩ := inOpen.ready
      have tried : mtMultiOpen.tryOne tick req = mtMultiOpen.attempt tick req conn := by
        rw [Phase.tryOne, if_pos ⟨live, done⟩, found]
      rw [tried]
      simp only [mtMultiOpen]
      split_ifs
      · exact ⟨inOpen, fun _ => ⟨live, done⟩, by simp, rfl⟩
      · exact ⟨inOpen.connect live, by simp, fun _ _ => rfl, rfl⟩
  · rw [tryOne_of_not_live live]
    exact ⟨inOpen, by simp, fun _ is_live => absurd is_live live, rfl⟩

theorem InOpen.inSend (inOpen : InOpen clean req)
    (finished : req.Live → req.action.flag = .flagOpen) : InSend clean req := by
  refine ⟨inOpen.ready, fun event member => Or.inl (inOpen.trace event member),
    fun live => Or.inl (finished live), inOpen.dead, fun opened => Or.inr (inOpen.opened opened),
    fun conn buff found has_buff _ sent => ?_⟩
  rw [inOpen.counted conn buff found has_buff] at sent
  exact absurd sent (lt_irrefl 0)

/-! ## Sending -/

theorem sendData_spec (found : req.action.conn = some conn) (has_buff : conn.msgBuff = some buff)
    (len_nonneg : 0 ≤ buff.msgLen) (tick : Nat) :
    ∃ count sendLen,
      (req.sendData conn tick).2 = (req.setMtMsgBuff conn { buff with sendLen }).record
        (.send count (req.sendData conn tick).1) ∧
      (conn.type = .objTcpKeep → sendLen = buff.sendLen + count ∧ -1 ≤ (req.sendData conn tick).1 ∧
        (req.sendData conn tick).1 ≤ sendLen) := by
  have self : req.setMtMsgBuff conn { buff with sendLen := buff.sendLen } = req :=
    setMtMsgBuff_self found has_buff
  unfold Request.sendData
  simp only [has_buff]
  split
  · split
    · exact ⟨0, buff.sendLen, by rw [self], fun _ => ⟨rfl, by omega, by omega⟩⟩
    · exact ⟨0, buff.sendLen, by rw [self], fun _ => ⟨rfl, by omega, by omega⟩⟩
    · refine ⟨_, _, rfl, fun _ => ⟨rfl, ?_, ?_⟩⟩
      · split_ifs <;> omega
      · split_ifs <;> omega
  · rename_i not_tcp
    split
    · exact ⟨0, buff.sendLen, by rw [self], fun tcp => absurd tcp not_tcp⟩
    · exact ⟨0, buff.sendLen, by rw [self], fun tcp => absurd tcp not_tcp⟩
    · exact ⟨_, _, rfl, fun tcp => absurd tcp not_tcp⟩

theorem InSend.sendData (inSend : InSend clean req) (live : req.Live)
    (found : req.action.conn = some conn) :
    (req.sendData conn tick).2.Live ∧ (req.sendData conn tick).2.Tried ∧
    (req.sendData conn tick).2.action.flag = req.action.flag ∧
    InSend clean (req.sendData conn tick).2 ∧
    (conn.type = .objTcpKeep → 0 < (req.sendData conn tick).1 →
      ¬ (req.sendData conn tick).2.Unsent) := by
  obtain ⟨other, buff, at_req, has_buff, type_eq, len_nonneg⟩ := inSend.ready
  obtain rfl : other = conn := Option.some.inj (at_req.symm.trans found)
  obtain ⟨count, sendLen, after_eq, tcp_len⟩ := sendData_spec found has_buff len_nonneg tick
  have sent : .send count (req.sendData other tick).1 ∈ (req.sendData other tick).2.trace := by
    rw [after_eq]
    exact List.mem_append_right _ List.mem_cons_self
  have older : ∀ event ∈ req.trace, event ∈ (req.sendData other tick).2.trace := by
    intro event member
    rw [after_eq]
    exact List.mem_append_left _ member
  have unsent_of : (req.sendData other tick).2.Unsent → req.Unsent ∧ count = 0 :=
    fun unsent => ⟨fun count ret member => unsent count ret (older _ member), unsent _ _ sent⟩
  have counted : other.type = .objTcpKeep → 0 < sendLen →
      ¬ (req.sendData other tick).2.Unsent := by
    intro tcp positive unsent
    obtain ⟨unsent_before, rfl⟩ := unsent_of unsent
    rw [(tcp_len tcp).1, Nat.add_zero] at positive
    exact inSend.counted other buff found has_buff tcp positive unsent_before
  refine ⟨?_, ⟨_, _, sent⟩, ?_, ?_, fun tcp positive => ?_⟩
  · rw [after_eq]
    exact live
  · rw [after_eq]
    rfl
  · refine ⟨?_, fun event member => ?_, fun _ => ?_, fun _ dead => ?_, fun _ => Or.inl ⟨_, _, sent⟩,
      fun after later at_after later_eq tcp positive => ?_⟩
    · rw [after_eq]
      exact ⟨_, _, rfl, rfl, type_eq, len_nonneg⟩
    · rw [after_eq] at member
      rcases List.mem_append.1 member with member | member
      · exact inSend.trace event member
      · exact Or.inr ⟨_, _, List.mem_singleton.1 member⟩
    · rw [after_eq]
      exact inSend.flag live
    · rw [after_eq] at dead
      exact absurd live dead
    · have after_is : after = { other with msgBuff := some { buff with sendLen } } := by
        rw [after_eq] at at_after
        exact (Option.some.inj at_after).symm
      subst after_is
      obtain rfl := Option.some.inj later_eq
      exact counted tcp positive
  · refine counted tcp ?_
    have := (tcp_len tcp).2.2
    omega

theorem InSend.fail (inSend : InSend clean req) (live : req.Live)
    (waits : req.action.flag ≠ .flagSend) (tried : .opened ∈ req.trace → req.Tried)
    (is_error : err ≠ .errNone) : InSend clean (req.setErrno err) := by
  have flag_eq : req.action.flag = .flagOpen := (inSend.flag live).resolve_right waits
  refine ⟨inSend.ready, inSend.trace, fun live => absurd live (not_live_setErrno is_error), ?_,
    fun opened => Or.inl (tried opened), inSend.counted⟩
  intro _ _
  show req.action.flag ≠ _
  rw [flag_eq]
  decide

/-- What a round of `mt_multi_sendto` does to it. -/
structure SendTry (clean : Prop) (tick : Nat) (req : Request) (entry : Request × Bool) : Prop where
  inSend : InSend clean entry.1
  waits : entry.2 = true → entry.1.Live ∧ entry.1.action.flag ≠ .flagSend
  finished : entry.2 = false → entry.1.Live → entry.1.action.flag = .flagSend
  tried : .opened ∈ entry.1.trace → entry.1.Tried
  done : mtMultiSendto.Done entry.1 → mtMultiSendto.Done req ∨
    req.Live ∧ req.Completes tick
  completes : req.Live → ¬ mtMultiSendto.Done req → req.Completes tick →
    entry.2 = false ∧ mtMultiSendto.Done entry.1 ∧
      (req.action.connObjType = .objTcpKeep → ¬ entry.1.Unsent)
  sort_eq : entry.1.sort = req.sort

theorem InSend.tryOne (inSend : InSend clean req) (tick : Nat) :
    SendTry clean tick req (mtMultiSendto.tryOne tick req) := by
  by_cases live : req.Live
  · by_cases done : req.action.flag = .flagSend
    · rw [tryOne_of_done done]
      refine ⟨inSend, by simp, fun _ _ => done, fun opened => ?_, Or.inl,
        fun _ not_done => absurd ⟨live, done⟩ not_done, rfl⟩
      refine (inSend.opened opened).resolve_right fun still => ?_
      exact absurd (still.2.symm.trans done) (by decide)
    · obtain ⟨conn, buff, found, has_buff, type_eq, len_nonneg⟩ := inSend.ready
      obtain ⟨count, sendLen, after_eq, tcp_len⟩ := sendData_spec found has_buff len_nonneg tick
      obtain ⟨after_live, tried, flag_eq, after_in, tcp_sent⟩ := inSend.sendData live found
      have sort_eq : (req.sendData conn tick).2.sort = req.sort := by
        rw [after_eq]
        rfl
      have still : (req.sendData conn tick).2.action.flag ≠ .flagSend := flag_eq ▸ done
      have tries : mtMultiSendto.tryOne tick req = mtMultiSendto.attempt tick req conn := by
        rw [Phase.tryOne, if_pos ⟨live, done⟩, found]
      have completes_iff : req.Completes tick ↔
          (req.sendData conn tick).1 ≠ -1 ∧ (req.sendData conn tick).1 ≠ 0 := by
        simp only [Request.Completes, found, Option.some.injEq, exists_eq_left']
      rw [tries]
      simp only [mtMultiSendto]
      split_ifs with failed waits
      · refine ⟨after_in.fail after_live still (fun _ => tried) (by decide), by simp,
          fun _ is_live => absurd is_live (not_live_setErrno (by decide)), fun _ => tried,
          fun is_done => absurd is_done.1 (not_live_setErrno (by decide)),
          fun _ _ complete => absurd failed (completes_iff.1 complete).1, sort_eq⟩
      · exact ⟨after_in, fun _ => ⟨after_live, still⟩, by simp, fun _ => tried,
          fun is_done => absurd is_done.2 still,
          fun _ _ complete => absurd waits (completes_iff.1 complete).2, sort_eq⟩
      · have complete : req.Completes tick := completes_iff.2 ⟨failed, waits⟩
        refine ⟨⟨after_in.ready, after_in.trace, fun _ => Or.inr rfl,
          fun _ dead => absurd after_live dead, fun _ => Or.inl tried, after_in.counted⟩, by simp,
          fun _ _ => rfl, fun _ => tried, fun _ => Or.inr ⟨live, complete⟩,
          fun _ _ _ => ⟨rfl, ⟨after_live, rfl⟩, fun tcp => ?_⟩, sort_eq⟩
        have tcp_type := type_eq.trans tcp
        have := (tcp_len tcp_type).2.1
        exact tcp_sent tcp_type (by omega)
  · rw [tryOne_of_not_live live]
    refine ⟨inSend, by simp, fun _ is_live => absurd is_live live, fun opened => ?_,
      fun is_done => absurd is_done.1 live, fun is_live => absurd is_live live, rfl⟩
    exact (inSend.opened opened).resolve_right fun still => live still.1

theorem InSend.inRecv (inSend : InSend clean req)
    (finished : req.Live → req.action.flag = .flagSend)
    (tried : .opened ∈ req.trace → req.Tried) : InRecv clean req := by
  have not_received : ¬ req.Received := by
    rintro ⟨ret, -, member⟩
    rcases inSend.trace _ member with is_opened | ⟨_, _, is_send⟩
    · cases is_opened
    · cases is_send
  refine ⟨inSend.ready, fun event member => ?_, fun live => Or.inl (finished live), inSend.dead,
    tried, fun received => absurd received not_received, fun _ done => ?_⟩
  · rcases inSend.trace event member with rfl | ⟨_, _, rfl⟩
    · exact trivial
    · exact trivial
  · exact absurd (done.2.symm.trans (finished done.1)) (by decide)

/-! ## Receiving -/

theorem recvData_spec (found : req.action.conn = some conn) (has_buff : conn.msgBuff = some buff)
    (len_nonneg : 0 ≤ buff.msgLen) (tick : Nat) :
    ∃ later events, (req.recvData conn tick).2 =
        { req.setMtMsgBuff conn later with trace := req.trace ++ events } ∧ 0 ≤ later.msgLen ∧
      (events = [] ∨ ∃ ret, events = [.input ret]) ∧
      (0 < (req.recvData conn tick).1 ∧ conn.type ≠ .objUdpSession →
        ∃ ret, 0 < ret ∧ events = [.input ret]) ∧
      (∀ ret, 0 < ret → events = [.input ret] → 0 < (req.recvData conn tick).1) := by
  have self : req = { req.setMtMsgBuff conn buff with trace := req.trace ++ [] } := by
    rw [setMtMsgBuff_self found has_buff, List.append_nil]
  have input_eq : ∀ ret, [ActionEvent.input (req.io.input tick)] = [.input ret] →
      req.io.input tick = ret := by
    intro ret same
    cases same
    rfl
  unfold Request.recvData
  simp only [has_buff]
  split
  · rename_i session
    split
    · exact ⟨buff, [], self, len_nonneg, Or.inl rfl, by simp, by simp⟩
    · exact ⟨buff, [], self, len_nonneg, Or.inl rfl, by simp [session], by simp⟩
  · split
    case h_4 =>
        split_ifs with complete
        · exact ⟨_, [.input (req.io.input tick)], rfl, Int.natCast_nonneg _, Or.inr ⟨_, rfl⟩,
            fun _ => ⟨_, complete, rfl⟩, fun _ _ _ => complete⟩
        all_goals
          exact ⟨_, [.input (req.io.input tick)], rfl, len_nonneg, Or.inr ⟨_, rfl⟩, by simp,
            fun ret positive same => absurd ((input_eq ret same).symm ▸ positive) complete⟩
    all_goals
      exact ⟨buff, [], self, len_nonneg, Or.inl rfl, by simp, by simp⟩
  · split
    case h_4 =>
        split_ifs with complete
        · exact ⟨_, [.input (req.io.input tick)], rfl, complete.le, Or.inr ⟨_, rfl⟩,
            fun _ => ⟨_, complete, rfl⟩, fun _ _ _ => complete⟩
        all_goals
          exact ⟨_, [.input (req.io.input tick)], rfl, len_nonneg, Or.inr ⟨_, rfl⟩, by simp,
            fun ret positive same => absurd ((input_eq ret same).symm ▸ positive) complete⟩
    all_goals
      exact ⟨buff, [], self, len_nonneg, Or.inl rfl, by simp, by simp⟩

theorem InRecv.fail (inRecv : InRecv clean req) (waits : req.action.flag ≠ .flagFin)
    (is_error : err ≠ .errNone) : InRecv clean (req.setErrno err) :=
  ⟨inRecv.ready, inRecv.trace, fun live => absurd live (not_live_setErrno is_error),
    fun _ _ => waits, inRecv.opened, fun received => absurd (inRecv.received received).2 waits,
    fun _ done => absurd done.1 (not_live_setErrno is_error)⟩

/-- What a round of `mt_multi_recvfrom` does to it. -/
structure RecvTry (clean : Prop) (req : Request) (entry : Request × Bool) : Prop where
  inRecv : InRecv clean entry.1
  waits : entry.2 = true → entry.1.Live ∧ entry.1.action.flag ≠ .flagFin
  finished : entry.2 = false → entry.1.Live → entry.1.action.flag = .flagFin
  sort_eq : entry.1.sort = req.sort

theorem InRecv.recvData (inRecv : InRecv clean req) (live : req.Live)
    (waits : req.action.flag ≠ .flagFin) (found : req.action.conn = some conn) :
    (req.recvData conn tick).2.Live ∧ (req.recvData conn tick).2.action.flag = req.action.flag ∧
    (req.recvData conn tick).2.sort = req.sort ∧
    (¬ 0 < (req.recvData conn tick).1 → InRecv clean (req.recvData conn tick).2) ∧
    (0 < (req.recvData conn tick).1 →
      InRecv clean ((req.recvData conn tick).2.setMsgFlag .flagFin)) := by
  obtain ⟨other, buff, at_req, has_buff, type_eq, len_nonneg⟩ := inRecv.ready
  obtain rfl : other = conn := Option.some.inj (at_req.symm.trans found)
  obtain ⟨later, events, after_eq, later_nonneg, events_cases, complete, input_pos⟩ :=
    recvData_spec found has_buff len_nonneg tick
  have not_received : ¬ req.Received := fun received => waits (inRecv.received received).2
  have trace := inRecv.trace
  have sent := inRecv.opened
  have early : ∀ event ∈ req.trace ++ events, event.Early := by grind [ActionEvent.Early]
  have received_now : ∀ after : Request, after.trace = req.trace ++ events → after.Received →
      0 < (req.recvData other tick).1 := by
    rintro after trace_eq ⟨ret, positive, member⟩
    rw [trace_eq] at member
    grind [Request.Received]
  have opened : .opened ∈ req.trace ++ events →
      ∃ count ret, .send count ret ∈ req.trace ++ events := by grind [Request.Tried]
  rw [after_eq] at *
  refine ⟨live, rfl, rfl, fun incomplete => ?_, fun positive => ?_⟩
  · exact ⟨⟨_, _, rfl, rfl, type_eq, later_nonneg⟩, early, fun _ => inRecv.flag live,
      fun _ dead => absurd live dead, opened,
      fun received => absurd (received_now _ rfl received) incomplete,
      fun _ done => absurd done.2 waits⟩
  · refine ⟨⟨_, _, rfl, rfl, type_eq, later_nonneg⟩, early, fun _ => Or.inr rfl,
      fun _ dead => absurd live dead, opened, fun _ => ⟨live, rfl⟩, fun not_session _ => ?_⟩
    obtain ⟨ret, ret_pos, rfl⟩ := complete ⟨positive, type_eq ▸ not_session⟩
    exact ⟨ret, ret_pos, List.mem_append_right _ List.mem_cons_self⟩

theorem InRecv.tryOne (inRecv : InRecv clean req) :
    RecvTry clean req (mtMultiRecvfrom.tryOne tick req) := by
  by_cases live : req.Live
  · by_cases done : req.action.flag = .flagFin
    · rw [tryOne_of_done done]
      exact ⟨inRecv, by simp, fun _ _ => done, rfl⟩
    · obtain ⟨conn, -, found, -⟩ := inRecv.ready
      have tries : mtMultiRecvfrom.tryOne tick req = mtMultiRecvfrom.attempt tick req conn := by
        rw [Phase.tryOne, if_pos ⟨live, done⟩, found]
      obtain ⟨after_live, flag_eq, sort_eq, incomplete, complete⟩ := inRecv.recvData live done found
      have still : (req.recvData conn tick).2.action.flag ≠ .flagFin := flag_eq ▸ done
      rw [tries]
      simp only [mtMultiRecvfrom]
      split_ifs with failed waits
      · exact ⟨(incomplete (by omega)).fail still (by decide), by simp,
          fun _ is_live => absurd is_live (not_live_setErrno (by decide)), sort_eq⟩
      · exact ⟨incomplete (by omega), fun _ => ⟨after_live, still⟩, by simp, sort_eq⟩
      · exact ⟨complete (by omega), by simp, fun _ _ => rfl, sort_eq⟩
  · rw [tryOne_of_not_live live]
    exact ⟨inRecv, by simp, fun _ is_live => absurd is_live live, rfl⟩

end Phases

end Spp.MsgSendrcv
