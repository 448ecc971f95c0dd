import Spp.Comm.SockCommu
import Spp.Lib.Returns

/-!
# Responses of one flow

The calls of `sendto` and the output events of one TCP flow: while the flow is open, the bytes that
the socket has accepted and the write cache are all the bytes passed, and a write cache with bytes
waits for `EPOLLOUT`.
-/

namespace Spp

theorem socketSend_cases (outcome : SocketOutcome) {bytes : List UInt8}
    (short : bytes.length < 2147483648) :
    (∃ count, socketSend outcome bytes = ⟨0, (bytes.take count).length, bytes.take count⟩) ∨
      ((socketSend outcome bytes).ret < 0 ∧ (socketSend outcome bytes).sentLen = 0 ∧
        (socketSend outcome bytes).accepted = []) := by
  cases outcome with
  | accepted count =>
      refine Or.inl ⟨count, ?_⟩
      have length_le := List.length_take_le' count bytes
      have ret_eq := i32_of_lt (show (bytes.take count).length < 2147483648 by omega)
      unfold socketSend
      dsimp only
      rw [ret_eq]
      exact if_neg (by omega)
  | failed errno =>
      refine Or.inr ⟨?_, rfl, rfl⟩
      unfold socketSend
      dsimp only
      split <;> omega

namespace ConnCache

variable {conn : ConnCache} {fresh : Fresh} {data : List UInt8}

/-- What a sending call may do to a connection: it throws, it asks to close the connection, or it
returns a number and no byte is lost. -/
inductive Sends (conn : ConnCache) (data : List UInt8) (done : Int → CRawCache → Prop)
    (sending : Sending) : Prop where
  | throws (w : CRawCache) (eq : sending.ret = none) (conn_eq : sending.conn = { conn with w })
  | closes (w : CRawCache) (eq : sending.ret = some (-eNeedClose))
      (conn_eq : sending.conn = { conn with w })
  | returns (ret : Int) (w : CRawCache) (eq : sending.ret = some ret)
      (conn_eq : sending.conn = { conn with w }) (modest : w.Modest)
      (content_eq : sending.accepted ++ w.content = conn.w.content ++ data) (done : done ret w)

/-- The number that `send` returns is smaller than the length of the data if bytes are left. -/
def SentPart (data : List UInt8) (ret : Int) (w : CRawCache) : Prop :=
  0 ≤ ret ∧ ret ≤ data.length ∧ (w.content ≠ [] → ret < data.length)

theorem appendW_eq {w : CRawCache} (modest : w.Modest) {accepted bytes : List UInt8}
    (few : w.content.length + bytes.length ≤ 1431655765) {ret : Int}
    (content_eq : accepted ++ (w.content ++ bytes) = conn.w.content ++ data)
    (part : 0 ≤ ret ∧ ret < data.length) :
    Returns (appendW { conn with w } fresh bytes ret accepted) False
      (Sends conn data (SentPart data)) := by
  obtain ⟨appended, eq, after, appended_eq, -⟩ := modest.append fresh few
  simp only [appendW, eq, Option.bind_eq_bind, Option.bind_some]
  cases thrown : appended.thrown with
  | true => exact Returns.pure (.throws _ rfl rfl)
  | false =>
      rw [thrown, if_neg Bool.false_ne_true] at appended_eq
      refine Returns.pure (.returns ret appended.cache rfl rfl after ?_
        ⟨part.1, part.2.le, fun _ => part.2⟩)
      rw [appended_eq]
      exact content_eq

theorem i32_length {bytes : List UInt8} (few : bytes.length ≤ 1431655765) :
    i32 bytes.length = bytes.length :=
  i32_of_lt (by omega)

/-- `send` of the new data, where the bytes of the cache have been accepted. -/
theorem sendNew_eq (conn : ConnCache) (modest : conn.w.Modest) (outcome : SocketOutcome)
    (nonempty : data ≠ [])
    (few : data.length ≤ 1431655765) :
    Returns (conn.sendNew outcome fresh data conn.w.content) False
      (Sends conn data (SentPart data)) := by
  have cleared := modest.skip conn.w.dataLen
  have cleared_eq : (conn.w.skip conn.w.dataLen).content = [] := by
    rw [CRawCache.content_skip modest.toSound, ← modest.length_content, List.drop_length]
  have length_pos := List.length_pos_of_ne_nil nonempty
  unfold sendNew
  dsimp only
  rcases socketSend_cases outcome (show data.length < 2147483648 by omega) with
    ⟨count, sent_eq⟩ | ⟨negative, none_sent, none_accepted⟩
  · have length_le := List.length_take_le' count data
    have part_eq := i32_length (show (data.take count).length ≤ 1431655765 by omega)
    rw [sent_eq]
    dsimp only
    rw [part_eq, if_neg (by omega)]
    split
    · rename_i part
      refine appendW_eq cleared ?_ ?_ ⟨Int.natCast_nonneg _, Int.ofNat_lt.2 part⟩
      · rw [cleared_eq, List.length_nil, List.length_drop]
        omega
      · rw [cleared_eq, List.nil_append, List.append_assoc, take_append_drop_length]
    · rename_i whole
      refine Returns.pure (.returns _ _ rfl rfl cleared ?_
        ⟨Int.natCast_nonneg _, Int.ofNat_le.2 length_le, fun left => absurd cleared_eq left⟩)
      have count_ge : data.length ≤ count := by
        rw [List.length_take] at whole
        omega
      rw [cleared_eq, List.append_nil, List.take_of_length_le count_ge]
  · rw [none_sent, none_accepted, List.append_nil]
    split
    · exact Returns.pure (.closes _ rfl rfl)
    · rw [show i32 ((0 : Nat) : Int) = 0 by decide]
      refine appendW_eq cleared ?_ ?_ ⟨le_refl 0, Int.ofNat_lt.2 length_pos⟩
      · rw [cleared_eq, List.length_nil, List.length_drop]
        omega
      · rw [cleared_eq, List.nil_append, List.drop_zero]

theorem sendBoth_eq (conn : ConnCache) (modest : conn.w.Modest)
    (cacheOutcome outcome : SocketOutcome) (nonempty : data ≠ [])
    (few : conn.w.content.length + data.length ≤ 1431655765) :
    Returns (conn.sendBoth cacheOutcome outcome fresh data) False
      (Sends conn data (SentPart data)) := by
  have length_eq := modest.length_content
  have length_pos := List.length_pos_of_ne_nil nonempty
  have whole : Returns (conn.sendNew outcome fresh data conn.w.content) False
      (Sends conn data (SentPart data)) := sendNew_eq conn modest outcome nonempty (by omega)
  simp only [sendBoth, modest.data_eq, Option.bind_eq_bind, Option.bind_some]
  rcases socketSend_cases cacheOutcome (show conn.w.content.length < 2147483648 by omega) with
    ⟨count, sent_eq⟩ | ⟨negative, none_sent, none_accepted⟩
  · have length_le := List.length_take_le' count conn.w.content
    rw [sent_eq]
    dsimp only
    split
    · have skipped := CRawCache.content_skip modest.toSound (conn.w.content.take count).length
      refine appendW_eq (modest.skip _) ?_ ?_ ⟨le_refl 0, Int.ofNat_lt.2 length_pos⟩
      · rw [skipped, List.length_drop]
        omega
      · rw [skipped, ← List.append_assoc, take_append_drop_length]
    · rename_i complete
      rw [if_neg (lt_irrefl 0)]
      have count_ge : conn.w.content.length ≤ count := by
        have not_part : ¬(conn.w.content.take count).length < conn.w.dataLen := fun part =>
          complete (Or.inr ⟨rfl, part⟩)
        rw [List.length_take] at not_part
        omega
      rw [List.take_of_length_le count_ge]
      exact whole
  · rw [none_sent, none_accepted]
    split
    · refine appendW_eq (modest.skip 0) ?_ ?_ ⟨le_refl 0, Int.ofNat_lt.2 length_pos⟩
      · rw [CRawCache.content_skip modest.toSound, List.drop_zero]
        exact few
      · rw [CRawCache.content_skip modest.toSound, List.drop_zero, List.nil_append]
    · exact Returns.pure (.closes _ rfl rfl)

theorem send_eq (modest : conn.w.Modest) (now : Nat × Nat) (cacheOutcome outcome : SocketOutcome)
    (fresh : Fresh) (nonempty : data ≠ [])
    (few : conn.w.content.length + data.length ≤ 1431655765) :
    Returns (conn.send now cacheOutcome outcome fresh data) False
      (Sends { conn with access := now } data (SentPart data)) := by
  unfold send
  dsimp only
  split
  · exact sendBoth_eq { conn with access := now } modest cacheOutcome outcome nonempty few
  · rename_i empty
    have none_cached : conn.w.content = [] := by
      rw [← List.length_eq_zero_iff, modest.length_content]
      exact not_not.1 empty
    have whole : Returns (sendNew { conn with access := now } outcome fresh data
      conn.w.content) False
        (Sends { conn with access := now } data (SentPart data)) :=
      sendNew_eq { conn with access := now } modest outcome nonempty (by omega)
    rw [none_cached] at whole
    exact whole

/-- `sendfromcache` returns 0 if and only if nothing is left, and it does not ask to close the
connection by a number of bytes. -/
def SentCached (ret : Int) (w : CRawCache) : Prop :=
  (ret = 0 → w.content = []) ∧ ret ≠ -eNeedClose

theorem sendfromcache_eq (modest : conn.w.Modest) (few : conn.w.content.length ≤ 1431655765)
    (now : Nat × Nat) (outcome : SocketOutcome) :
    Returns (conn.sendfromcache now outcome) False fun sending =>
      sending.ret ≠ none ∧ Sends { conn with access := now } [] SentCached sending := by
  have length_eq := modest.length_content
  have content_eq : ({ conn with access := now } : ConnCache).w.content = conn.w.content := rfl
  have waits : Sends { conn with access := now } [] SentCached
      ⟨some cNeedSend, { conn with access := now }, []⟩ :=
    .returns _ _ rfl rfl modest (List.append_nil _).symm ⟨fun zero => absurd zero (by decide),
      by decide⟩
  unfold sendfromcache
  dsimp only
  split
  · rename_i empty
    have none_cached : conn.w.content = [] := by
      rw [← List.length_eq_zero_iff, length_eq]
      exact empty
    exact Returns.pure ⟨Option.some_ne_none _, .returns _ _ rfl rfl modest (List.append_nil _).symm
      ⟨fun _ => none_cached, by decide⟩⟩
  · simp only [sendCached, modest.data_eq, Option.bind_eq_bind, Option.bind_some]
    rcases socketSend_cases outcome (show conn.w.content.length < 2147483648 by omega) with
      ⟨count, sent_eq⟩ | ⟨negative, none_sent, none_accepted⟩
    · have length_le := List.length_take_le' count conn.w.content
      have part_eq := i32_length (show (conn.w.content.take count).length ≤ 1431655765 by omega)
      have skipped := CRawCache.content_skip modest.toSound (conn.w.content.take count).length
      have kept : conn.w.content.take count ++
          (conn.w.skip (conn.w.content.take count).length).content = conn.w.content ++ [] := by
        rw [skipped, take_append_drop_length, List.append_nil]
      rw [sent_eq]
      dsimp only
      rw [if_pos rfl, part_eq]
      split
      · rename_i none_sent
        rw [List.length_eq_zero_iff.1 none_sent]
        exact Returns.pure ⟨Option.some_ne_none _, waits⟩
      · rename_i some_sent
        split
        · rename_i whole
          refine Returns.pure ⟨Option.some_ne_none _,
            .returns _ _ rfl rfl (modest.skip _) kept ⟨fun _ => ?_, by decide⟩⟩
          rw [skipped, whole, ← length_eq, List.drop_length]
        · refine Returns.pure ⟨Option.some_ne_none _,
            .returns _ _ rfl rfl (modest.skip _) kept ⟨fun zero => ?_, ?_⟩⟩
          · exact absurd (Int.ofNat_eq_zero.1 zero) some_sent
          · rw [eNeedClose]
            omega
    · rw [if_neg (by omega), none_accepted]
      split
      · exact Returns.pure ⟨Option.some_ne_none _, waits⟩
      · exact Returns.pure ⟨Option.some_ne_none _, .closes _ rfl rfl⟩

end ConnCache

namespace CTSockCommu

variable {commu : CTSockCommu} {flow : Nat}

/-! ## One flow -/

variable {conn : ConnCache} {length fd : Nat} {data : List UInt8}

theorem getcc_setcc (conns : CConnSet) (flow : Nat) (conn : ConnCache) :
    (conns.setcc flow conn).getcc flow = conn :=
  Function.update_self ..

/-- An open TCP flow that holds few bytes, and no cache limit. -/
structure OpenFlow (commu : CTSockCommu) (flow : Nat) : Prop where
  flow_eq : (commu.conns.getcc flow).flow = flow
  flow_ne : flow ≠ 0
  type_eq : (commu.conns.getcc flow).type = tcpSocket
  modest : (commu.conns.getcc flow).w.Modest
  few : (commu.conns.getcc flow).w.content.length ≤ 1431655765
  /-- `epoll` waits for events of the fd under this flow, and for `EPOLLOUT` if there are bytes. -/
  waits : ∃ output, commu.epoll (commu.conns.getcc flow).fd = some (flow, output) ∧
    ((commu.conns.getcc flow).w.content ≠ [] → output = true)
  unlimited : commu.sendcacheLimit = 0

/-- There is no connection. -/
def Closed (commu : CTSockCommu) (flow : Nat) : Prop := (commu.conns.getcc flow).flow = 0

theorem OpenFlow.known (opened : commu.OpenFlow flow) : ¬commu.conns.Unknown flow := by
  rintro (other | zero)
  · exact other opened.flow_eq
  · exact opened.flow_ne zero

theorem OpenFlow.not_closed (opened : commu.OpenFlow flow) : ¬commu.Closed flow := fun closed =>
  opened.flow_ne (opened.flow_eq.symm.trans closed)

theorem closed_closeconn (known : ¬commu.conns.Unknown flow) :
    (commu.closeconn flow).Closed flow := by
  show ((commu.conns.closeconn flow).getcc flow).flow = 0
  rw [CConnSet.closeconn, if_neg known]
  show ((commu.conns.setcc flow (commu.conns.getcc flow).close).getcc flow).flow = 0
  rw [getcc_setcc]
  rfl

/-- The flow is closed, or it is open and no byte is lost. -/
def Kept (before : CTSockCommu) (flow : Nat) (data : List UInt8) (sent : SentTo) : Prop :=
  sent.commu.Closed flow ∨ (sent.commu.OpenFlow flow ∧
    sent.accepted ++ (sent.commu.conns.getcc flow).w.content =
      (before.conns.getcc flow).w.content ++ data)

/-- The connection changes. -/
def withConn (commu : CTSockCommu) (flow : Nat) (conn : ConnCache) : CTSockCommu :=
  { commu with conns := commu.conns.setcc flow conn }

theorem withConn_getcc (commu : CTSockCommu) (flow : Nat) (conn : ConnCache) :
    (commu.withConn flow conn).conns.getcc flow = conn :=
  getcc_setcc ..

theorem OpenFlow.withConn_known (opened : commu.OpenFlow flow)
    (flow_eq : conn.flow = (commu.conns.getcc flow).flow) :
    ¬(commu.withConn flow conn).conns.Unknown flow := by
  rintro (other | zero)
  · rw [withConn_getcc, flow_eq] at other
    exact other opened.flow_eq
  · exact opened.flow_ne zero

/-- An open flow with another write cache; `epoll` waits for the events that it needs. -/
theorem OpenFlow.with_cache (opened : commu.OpenFlow flow) {now : Nat × Nat} {w : CRawCache}
    (modest : w.Modest) (few : w.content.length ≤ 1431655765) {epoll : Nat → Option (Nat × Bool)}
    (waits : ∃ output, epoll (commu.conns.getcc flow).fd = some (flow, output) ∧
      (w.content ≠ [] → output = true)) :
    OpenFlow { (commu.withConn flow { commu.conns.getcc flow with access := now, w }) with epoll }
      flow := by
  have conn_eq : ({ (commu.withConn flow { commu.conns.getcc flow with access := now, w }) with
      epoll } : CTSockCommu).conns.getcc flow =
      { commu.conns.getcc flow with access := now, w } := withConn_getcc ..
  refine ⟨?_, opened.flow_ne, ?_, ?_, ?_, ?_, opened.unlimited⟩
  · rw [conn_eq]
    exact opened.flow_eq
  · rw [conn_eq]
    exact opened.type_eq
  · rw [conn_eq]
    exact modest
  · rw [conn_eq]
    exact few
  · rw [conn_eq]
    exact waits

theorem sendtoDone_close (commu : CTSockCommu) (flow length : Nat) :
    commu.sendtoDone flow length (-eNeedClose) = some (commu.closeconn flow) := by
  unfold sendtoDone
  rw [if_neg (by decide), if_pos rfl]

theorem sendtoDone_part {ret : Int} (positive : 0 ≤ ret) (part : ret < length)
    (not_udp : (commu.conns.getcc flow).type ≠ udpSocket) :
    commu.sendtoDone flow length ret =
      some (commu.modify (commu.conns.getcc flow).fd flow true) := by
  unfold sendtoDone
  rw [if_pos positive, if_pos part, if_pos not_udp]

theorem sendtoDone_whole (not_udp : (commu.conns.getcc flow).type ≠ udpSocket) :
    commu.sendtoDone flow length length = some commu := by
  unfold sendtoDone
  rw [if_pos (Int.natCast_nonneg length), if_neg (lt_irrefl _), if_neg (not_not_intro rfl),
    if_neg (fun both => not_udp both.1)]

theorem modify_eq {flow : Nat} {registered : Nat × Bool} (found : commu.epoll fd = some registered)
    (output : Bool) : commu.modify fd flow output =
      { commu with epoll := Function.update commu.epoll fd (some (flow, output)) } := by
  unfold modify
  rw [found]

theorem sendto_known (known : ¬commu.conns.Unknown flow) (unlimited : commu.sendcacheLimit = 0)
    (input : SendtoInput) (nonempty : data ≠ []) :
    commu.sendto flow input data = ((commu.conns.getcc flow).send input.now input.cacheOutcome
      input.outcome input.fresh data).bind fun sending =>
        ((commu.withConn flow sending.conn).sendtoDone flow data.length
          (sending.ret.getD (-eNeedClose))).bind fun after =>
            some (SentTo.mk (sending.ret.getD (-eNeedClose)) after sending.accepted) := by
  have length_pos := List.length_pos_of_ne_nil nonempty
  have no_limit : ¬(commu.overSendcacheLimit (commu.conns.getcc flow) = true) := by
    simp [overSendcacheLimit, unlimited]
  rw [CTSockCommu.sendto, if_neg (by omega), if_neg no_limit]
  unfold sendtoData CConnSet.send
  rw [if_neg known]
  exact Option.bind_assoc ..

theorem modify_fields (commu : CTSockCommu) (fd flow : Nat) (output : Bool) :
    (commu.modify fd flow output).conns = commu.conns ∧
      (commu.modify fd flow output).sendcacheLimit = commu.sendcacheLimit := by
  unfold modify
  split <;> exact ⟨rfl, rfl⟩

theorem OpenFlow.sendto (opened : commu.OpenFlow flow) (input : SendtoInput) (nonempty : data ≠ [])
    (few : (commu.conns.getcc flow).w.content.length + data.length ≤ 1431655765) :
    Returns (commu.sendto flow input data) False (Kept commu flow data) := by
  have length_pos := List.length_pos_of_ne_nil nonempty
  have not_udp : ¬(commu.conns.getcc flow).type = udpSocket := by
    rw [opened.type_eq]
    decide
  rw [sendto_known opened.known opened.unlimited input nonempty]
  obtain ⟨sending, eq, sends⟩ | ⟨-, impossible⟩ := ConnCache.send_eq opened.modest input.now
    input.cacheOutcome input.outcome input.fresh nonempty few
  · rw [eq]
    show Returns (((commu.withConn flow sending.conn).sendtoDone flow data.length
      (sending.ret.getD (-eNeedClose))).bind fun after =>
        some (SentTo.mk (sending.ret.getD (-eNeedClose)) after sending.accepted)) _ _
    have closes : sending.ret.getD (-eNeedClose) = -eNeedClose →
        sending.conn.flow = (commu.conns.getcc flow).flow →
        Returns (((commu.withConn flow sending.conn).sendtoDone flow data.length
          (sending.ret.getD (-eNeedClose))).bind fun after =>
            some (SentTo.mk (sending.ret.getD (-eNeedClose)) after sending.accepted))
          False (Kept commu flow data) := by
      intro ret_eq flow_eq
      rw [ret_eq, sendtoDone_close]
      exact Returns.pure (Or.inl (closed_closeconn (opened.withConn_known flow_eq)))
    cases sends with
    | throws w ret_eq conn_eq | closes w ret_eq conn_eq =>
        exact closes (by rw [ret_eq]; rfl) (by rw [conn_eq])
    | returns ret w ret_eq conn_eq modest content_eq part =>
        obtain ⟨positive, le, less⟩ := part
        have kept_eq : sending.accepted ++ w.content =
            (commu.conns.getcc flow).w.content ++ data := content_eq
        have length_eq := congrArg List.length kept_eq
        rw [List.length_append, List.length_append] at length_eq
        have w_few : w.content.length ≤ 1431655765 := by omega
        obtain ⟨output, found, needs⟩ := opened.waits
        rw [ret_eq, conn_eq, Option.getD_some]
        have type_ne : ((commu.withConn flow { commu.conns.getcc flow with
            access := input.now, w }).conns.getcc flow).type ≠ udpSocket := by
          rw [withConn_getcc]
          exact not_udp
        by_cases part : ret < data.length
        · rw [sendtoDone_part positive part type_ne, withConn_getcc]
          rw [modify_eq
            (show (commu.withConn flow _).epoll (commu.conns.getcc flow).fd = _ from found)]
          refine Returns.pure (Or.inr ⟨opened.with_cache modest w_few
            ⟨true, Function.update_self .., fun _ => rfl⟩, ?_⟩)
          show sending.accepted ++ ((commu.withConn flow _).conns.getcc flow).w.content = _
          rw [withConn_getcc]
          exact content_eq
        · have whole : ret = data.length := by omega
          have none_left : w.content = [] := by
            by_contra left
            exact part (less left)
          rw [whole, sendtoDone_whole type_ne]
          refine Returns.pure (Or.inr ⟨opened.with_cache modest w_few
            ⟨output, found, fun left => absurd none_left left⟩, ?_⟩)
          show sending.accepted ++ ((commu.withConn flow _).conns.getcc flow).w.content = _
          rw [withConn_getcc]
          exact content_eq
  · exact impossible.elim

theorem outputDone_close (commu : CTSockCommu) (fd flow : Nat) :
    commu.outputDone fd flow (-eNeedClose) = commu.closeconn flow := by
  have negative : -eNeedClose ≠ 0 := by decide
  simp only [outputDone, negative, false_and, if_false, if_true]

/-- The output part of `poll` where there is no fin bit and the connection stays. -/
theorem outputDone_open {ret : Int} (no_fin : (commu.conns.getcc flow).w.finBit = false)
    (stays : ret ≠ -eNeedClose) :
    commu.outputDone fd flow ret = if ret = 0 then commu.modify fd flow false else commu := by
  simp only [outputDone, no_fin, Bool.false_eq_true, false_and, and_false, if_false, stays]

theorem OpenFlow.output (opened : commu.OpenFlow flow) (now : Nat × Nat) (outcome : SocketOutcome) :
    Returns (commu.output (commu.conns.getcc flow).fd flow now outcome) False
      (Kept commu flow []) := by
  unfold CTSockCommu.output CConnSet.sendfromcache
  rw [if_neg opened.known]
  obtain ⟨sending, eq, returns, sends⟩ | ⟨-, impossible⟩ :=
    ConnCache.sendfromcache_eq opened.modest opened.few now outcome
  · rw [eq]
    show Returns (some (SentTo.mk (sending.ret.getD 0) ((commu.withConn flow
      sending.conn).outputDone (commu.conns.getcc flow).fd flow (sending.ret.getD 0))
        sending.accepted)) _ _
    cases sends with
    | throws w ret_eq conn_eq => exact absurd ret_eq returns
    | closes w ret_eq conn_eq =>
        rw [ret_eq, Option.getD_some, outputDone_close]
        exact Returns.pure (Or.inl (closed_closeconn (opened.withConn_known (by rw [conn_eq]))))
    | returns ret w ret_eq conn_eq modest content_eq sent =>
        obtain ⟨none_left, stays⟩ := sent
        have kept_eq : sending.accepted ++ w.content =
            (commu.conns.getcc flow).w.content ++ [] := content_eq
        have length_eq := congrArg List.length kept_eq
        rw [List.length_append, List.length_append, List.length_nil] at length_eq
        have w_few : w.content.length ≤ 1431655765 := by
          have := opened.few
          omega
        obtain ⟨output, found, needs⟩ := opened.waits
        rw [ret_eq, conn_eq, Option.getD_some, outputDone_open
          (by rw [withConn_getcc]; exact modest.finBit_eq) stays]
        split
        · rename_i zero
          rw [modify_eq
            (show (commu.withConn flow _).epoll (commu.conns.getcc flow).fd = _ from found)]
          refine Returns.pure (Or.inr ⟨opened.with_cache modest w_few
            ⟨false, Function.update_self .., fun left => absurd (none_left zero) left⟩, ?_⟩)
          show sending.accepted ++ ((commu.withConn flow _).conns.getcc flow).w.content = _
          rw [withConn_getcc]
          exact content_eq
        · have nonempty_before : w.content ≠ [] → (commu.conns.getcc flow).w.content ≠ [] := by
            intro left empty
            rw [empty, List.append_nil, List.append_eq_nil_iff] at kept_eq
            exact left kept_eq.2
          refine Returns.pure (Or.inr ⟨opened.with_cache modest w_few
            ⟨output, found, fun left => needs (nonempty_before left)⟩, ?_⟩)
          show sending.accepted ++ ((commu.withConn flow _).conns.getcc flow).w.content = _
          rw [withConn_getcc]
          exact content_eq
  · exact impossible.elim

/-! ## Runs -/

/-- What happens to a connection. -/
inductive FlowEvent where
  | sendto (input : SendtoInput) (data : List UInt8)
  | output (now : Nat × Nat) (outcome : SocketOutcome)

namespace FlowEvent

/-- What an event does to the connections. -/
def perform (commu : CTSockCommu) (flow : Nat) : FlowEvent → Option SentTo
  | .sendto input data => commu.sendto flow input data
  | .output now outcome => commu.output (commu.conns.getcc flow).fd flow now outcome

/-- The bytes that an event is given. -/
def passed : FlowEvent → List UInt8
  | .sendto _ data => data
  | .output _ _ => []

/-- A blob has some bytes, and its length is an `int`. -/
def Fits : FlowEvent → Prop
  | .sendto _ data => data ≠ [] ∧ data.length < 2147483648
  | .output _ _ => True

/-- The bytes in the write cache and in the blob are at most 2^32 / 3. -/
def Safe (commu : CTSockCommu) (flow : Nat) (event : FlowEvent) : Prop :=
  event.Fits ∧
    (commu.conns.getcc flow).w.content.length + event.passed.length ≤ 1431655765

end FlowEvent

/-- What was accepted, and what was passed in. -/
structure FlowState where
  commu : CTSockCommu
  accepted : List UInt8
  passed : List UInt8

/-- An event leads from a state in which the flow is open to another state. -/
def FlowState.Steps (flow : Nat) (before after : FlowState) (event : FlowEvent) : Prop :=
  ¬before.commu.Closed flow ∧ ∃ sent, event.perform before.commu flow = some sent ∧ after =
    ⟨sent.commu, before.accepted ++ sent.accepted, before.passed ++ event.passed⟩

/-- The connection is open, with nothing to send. -/
structure Live (commu : CTSockCommu) (flow : Nat) : Prop extends OpenFlow commu flow where
  empty : (commu.conns.getcc flow).w.content = []

/-- Runs of a connection. -/
def FlowReaches (commu : CTSockCommu) (flow : Nat) (state : FlowState) : Prop :=
  commu.Live flow ∧ Relation.ReflTransGen (fun before after : FlowState => ∃ event : FlowEvent,
    event.Fits ∧ before.Steps flow after event) ⟨commu, [], []⟩ state

/-- Runs that meet the condition. -/
def SafeFlowReaches (commu : CTSockCommu) (flow : Nat) (state : FlowState) : Prop :=
  commu.Live flow ∧ Relation.ReflTransGen (fun before after : FlowState => ∃ event : FlowEvent,
    event.Safe before.commu flow ∧ before.Steps flow after event) ⟨commu, [], []⟩ state

theorem FlowReaches.tail {input : SendtoInput} {accepted passed : List UInt8} {last : CTSockCommu}
    (reaches : FlowReaches commu flow ⟨last, accepted, passed⟩)
    (fits : FlowEvent.Fits (.sendto input data)) (opened : ¬last.Closed flow) {sent : SentTo}
    (sends : last.sendto flow input data = some sent) :
    FlowReaches commu flow ⟨sent.commu, accepted ++ sent.accepted, passed ++ data⟩ :=
  ⟨reaches.1, reaches.2.tail ⟨.sendto input data, fits, opened, sent, sends, rfl⟩⟩

theorem OpenFlow.perform (opened : commu.OpenFlow flow) {event : FlowEvent}
    (safe : event.Safe commu flow) :
    Returns (event.perform commu flow) False (Kept commu flow event.passed) := by
  cases event with
  | sendto input data => exact opened.sendto input safe.1.1 safe.2
  | output now outcome => exact opened.output now outcome

theorem SafeFlowReaches.kept {state : FlowState} (reaches : SafeFlowReaches commu flow state) :
    state.commu.Closed flow ∨ (state.commu.OpenFlow flow ∧
      state.accepted ++ (state.commu.conns.getcc flow).w.content = state.passed) := by
  obtain ⟨live, run⟩ := reaches
  induction run with
  | refl => exact Or.inr ⟨live.toOpenFlow, live.empty⟩
  | @tail before after _ step induction =>
      obtain ⟨event, safe, not_closed, sent, performs, rfl⟩ := step
      obtain ⟨opened, passed_eq⟩ := induction.resolve_left not_closed
      refine ((opened.perform safe).of_some performs).imp_right ?_
      rintro ⟨after_opened, content_eq⟩
      refine ⟨after_opened, ?_⟩
      rw [List.append_assoc, content_eq, ← List.append_assoc, passed_eq]

/-- In a run of safe events, as long as the flow is open, no byte is lost, a write cache with bytes
waits for `EPOLLOUT` under this flow, and every further safe event returns. -/
theorem safeFlowReaches_in_order {state : FlowState} (reaches : SafeFlowReaches commu flow state)
    (opened : ¬state.commu.Closed flow) :
    state.accepted ++ (state.commu.conns.getcc flow).w.content = state.passed ∧
      ((state.commu.conns.getcc flow).w.content ≠ [] →
        state.commu.epoll (state.commu.conns.getcc flow).fd = some (flow, true)) ∧
      ∀ event : FlowEvent, event.Safe state.commu flow →
        (event.perform state.commu flow).isSome := by
  obtain ⟨open_flow, passed_eq⟩ := reaches.kept.resolve_left opened
  obtain ⟨output, found, needs⟩ := open_flow.waits
  refine ⟨passed_eq, fun left => ?_, fun event safe => (open_flow.perform safe).isSome id⟩
  rw [found, needs left]

/-! ## Samples -/

/-- No connection. -/
def start (maxconn : Nat) : CTSockCommu :=
  ⟨⟨fun _ => ⟨0, 0, (0, 0), 0, ⟨0, 0, 0, 0, 0, 0, 0, 0⟩, .init, .init⟩, maxconn, 0⟩,
    fun _ => none, 0,
    false, 0⟩

/-- One connection with fd 3 and flow 1. -/
def oneFlow : CTSockCommu := (start 1).accept 3 (0, 0)

theorem oneFlow_getcc : (oneFlow.conns.getcc 1).flow = 1 ∧ (oneFlow.conns.getcc 1).fd = 3 ∧
    (oneFlow.conns.getcc 1).type = tcpSocket ∧ (oneFlow.conns.getcc 1).w = .init :=
  ⟨rfl, rfl, rfl, rfl⟩

theorem live_oneFlow : oneFlow.Live 1 where
  flow_eq := oneFlow_getcc.1
  flow_ne := by decide
  type_eq := oneFlow_getcc.2.2.1
  modest := by
    rw [oneFlow_getcc.2.2.2]
    exact CRawCache.modest_init
  few := by
    rw [oneFlow_getcc.2.2.2]
    exact Nat.zero_le _
  waits := ⟨false, rfl, by rw [oneFlow_getcc.2.2.2]; exact fun left => absurd rfl left⟩
  unlimited := rfl
  empty := by
    rw [oneFlow_getcc.2.2.2]
    rfl

/-- The socket accepts one byte. -/
def oneByte : SendtoInput := ⟨(1, 0), .accepted 1, .accepted 1, some fun _ => 0⟩

/-- Three bytes are passed in. -/
def sentOne : SentTo := (oneFlow.sendto 1 oneByte [1, 2, 3]).get (by decide)

theorem safeFlowReaches_in_order_sample :
    SafeFlowReaches oneFlow 1 ⟨sentOne.commu, [1], [1, 2, 3]⟩ ∧ ¬sentOne.commu.Closed 1 ∧
      (sentOne.commu.conns.getcc 1).w.content = [2, 3] ∧
      [1] ++ (sentOne.commu.conns.getcc 1).w.content = [1, 2, 3] ∧
      sentOne.commu.epoll (sentOne.commu.conns.getcc 1).fd = some (1, true) := by
  have reaches : SafeFlowReaches oneFlow 1 ⟨sentOne.commu, [1], [1, 2, 3]⟩ := by
    refine ⟨live_oneFlow, Relation.ReflTransGen.single ⟨.sendto oneByte [1, 2, 3],
      ⟨⟨by decide, by decide⟩, ?_⟩, live_oneFlow.not_closed, sentOne, (Option.some_get _).symm, ?_⟩⟩
    · rw [live_oneFlow.empty]
      decide
    · have accepted_eq : sentOne.accepted = [1] := by decide
      rw [accepted_eq]
      rfl
  have opened : ¬sentOne.commu.Closed 1 := by
    have flow_eq : (sentOne.commu.conns.getcc 1).flow = 1 := by decide
    rw [Closed, flow_eq]
    decide
  have left : (sentOne.commu.conns.getcc 1).w.content = [2, 3] := by decide
  obtain ⟨passed_eq, waits, -⟩ := safeFlowReaches_in_order reaches opened
  exact ⟨reaches, opened, left, passed_eq, waits (by rw [left]; decide)⟩

/-- The socket accepts nothing. -/
def nothing : SendtoInput := ⟨(1, 0), .failed 11, .failed 11, some fun _ => 0⟩

/-- An open flow with bytes at the front of the block of its write cache. -/
structure Heavy (commu : CTSockCommu) (flow length : Nat) : Prop where
  known : ¬commu.conns.Unknown flow
  type_eq : (commu.conns.getcc flow).type = tcpSocket
  sound : (commu.conns.getcc flow).w.Sound
  finBit_eq : (commu.conns.getcc flow).w.finBit = false
  front : (commu.conns.getcc flow).w.dataHead = 0
  length_eq : (commu.conns.getcc flow).w.dataLen = length
  unlimited : commu.sendcacheLimit = 0

theorem Heavy.not_closed (heavy : commu.Heavy flow length) : ¬commu.Closed flow := by
  intro closed
  have zero : (commu.conns.getcc flow).flow = 0 := closed
  by_cases flow_zero : flow = 0
  · exact heavy.known (Or.inr flow_zero)
  · exact heavy.known (Or.inl fun same => flow_zero (same.symm.trans zero))

theorem socketSend_nothing (bytes : List UInt8) :
    socketSend (.failed 11) bytes = ⟨-11, 0, []⟩ := rfl

theorem send_nothing (sound : conn.w.Sound) (now : Nat × Nat) (fresh : Fresh)
    (nonempty : data ≠ []) :
    conn.send now (.failed 11) (.failed 11) fresh data =
      ConnCache.appendW { conn with access := now, w := conn.w.skip 0 } fresh data 0 [] := by
  have length_pos := List.length_pos_of_ne_nil nonempty
  unfold ConnCache.send
  dsimp only
  split
  · simp only [ConnCache.sendBoth, sound.data_eq, Option.bind_eq_bind, Option.bind_some,
      socketSend_nothing]
    exact if_pos (Or.inl rfl)
  · rename_i empty
    simp only [ConnCache.sendNew, socketSend_nothing, List.append_nil, List.drop_zero]
    rw [if_neg (by decide), if_pos length_pos, not_not.1 empty]
    rfl

section Heavy

variable (heavy : commu.Heavy flow length)

include heavy

theorem Heavy.skipped : ((commu.conns.getcc flow).w.skip 0).Sound ∧
    ((commu.conns.getcc flow).w.skip 0).finBit = false ∧
    ((commu.conns.getcc flow).w.skip 0).dataHead = 0 ∧
    ((commu.conns.getcc flow).w.skip 0).dataLen = length := by
  refine ⟨heavy.sound.skip 0, (CRawCache.skip_finBit 0).trans heavy.finBit_eq, ?_⟩
  by_cases empty : (commu.conns.getcc flow).w.dataLen = 0
  · have skipped_length := (heavy.sound.skip 0).length_content
    rw [CRawCache.content_skip heavy.sound, List.drop_zero,
      heavy.sound.length_content] at skipped_length
    refine ⟨?_, skipped_length.symm.trans heavy.length_eq⟩
    unfold CRawCache.skip
    cases (commu.conns.getcc flow).w.mem with
    | none => exact heavy.front
    | some mem =>
        dsimp only
        rw [empty, if_pos (le_refl 0)]
  · rw [CRawCache.skip_zero heavy.sound empty]
    exact ⟨heavy.front, heavy.length_eq⟩

theorem Heavy.sendto_nothing (nonempty : data ≠ []) (small : length + data.length < 4294967296) :
    ∃ sent, commu.sendto flow nothing data = some sent ∧
      sent.commu.Heavy flow (length + data.length) := by
  have length_pos := List.length_pos_of_ne_nil nonempty
  obtain ⟨sound, no_fin, front, length_eq⟩ := heavy.skipped
  obtain ⟨appended, eq, appends, thrown⟩ := CRawCache.append_eq sound no_fin nothing.fresh
    (show data.length + _ + _ < 4294967296 by rw [front, length_eq]; omega)
  have returns : appended.thrown = false := by
    cases thrown_eq : appended.thrown with
    | false => rfl
    | true => cases thrown thrown_eq
  have content_eq := appends.content_eq
  rw [returns, if_neg Bool.false_ne_true] at content_eq
  have after_length := congrArg List.length content_eq
  rw [List.length_append, appends.sound.length_content, sound.length_content,
    length_eq] at after_length
  obtain ⟨conn, conn_eq⟩ : ∃ conn : ConnCache, conn = { commu.conns.getcc flow with
    access := nothing.now, w := appended.cache } := ⟨_, rfl⟩
  have getcc_eq : (commu.withConn flow conn).conns.getcc flow = conn := withConn_getcc ..
  have type_eq : conn.type = tcpSocket := by
    rw [conn_eq]
    exact heavy.type_eq
  have w_eq : conn.w = appended.cache := by rw [conn_eq]
  have done : (commu.withConn flow conn).sendtoDone flow data.length 0 =
      some ((commu.withConn flow conn).modify conn.fd flow true) := by
    rw [sendtoDone_part (le_refl 0) (Int.ofNat_lt.2 length_pos)
      (by rw [getcc_eq, type_eq]; decide), getcc_eq]
  have sends : (commu.conns.getcc flow).send nothing.now nothing.cacheOutcome nothing.outcome
      nothing.fresh data = some ⟨some 0, conn, []⟩ := by
    rw [conn_eq]
    refine (send_nothing heavy.sound nothing.now nothing.fresh nonempty).trans ?_
    refine Option.bind_eq_some_iff.2 ⟨appended, eq, ?_⟩
    rw [returns]
    rfl
  refine ⟨⟨0, (commu.withConn flow conn).modify conn.fd flow true, []⟩, ?_, ?_⟩
  · rw [sendto_known heavy.known heavy.unlimited nothing nonempty, sends]
    exact Option.bind_eq_some_iff.2 ⟨_, rfl, Option.bind_eq_some_iff.2 ⟨_, done, rfl⟩⟩
  · have modified_eq : ((commu.withConn flow conn).modify conn.fd flow true).conns.getcc flow =
        conn := by
      rw [(modify_fields ..).1, getcc_eq]
    refine ⟨?_, ?_, ?_, ?_, ?_, ?_, (modify_fields ..).2.trans heavy.unlimited⟩
    · show ¬((commu.withConn flow conn).modify conn.fd flow true).conns.Unknown flow
      rw [CConnSet.Unknown, modified_eq, conn_eq]
      exact heavy.known
    · rw [modified_eq]
      exact type_eq
    · rw [modified_eq, w_eq]
      exact appends.sound
    · rw [modified_eq, w_eq]
      exact appends.finBit_eq.trans no_fin
    · rw [modified_eq, w_eq]
      exact appends.dataHead_eq front
    · rw [modified_eq, w_eq]
      exact after_length

theorem Heavy.sendto_overflow (nonempty : data ≠ []) (some_bytes : length ≠ 0)
    (full : data.length + length = 4294967296) : commu.sendto flow nothing data = none := by
  obtain ⟨sound, no_fin, front, length_eq⟩ := heavy.skipped
  have overflow := CRawCache.append_overflow sound no_fin nothing.fresh front
    (by rw [length_eq]; exact some_bytes) (by rw [length_eq]; exact full)
  have sends : (commu.conns.getcc flow).send nothing.now nothing.cacheOutcome nothing.outcome
      nothing.fresh data = none := by
    refine (send_nothing heavy.sound nothing.now nothing.fresh nonempty).trans ?_
    exact Option.bind_eq_none_iff.2 fun appended eq => absurd (overflow.symm.trans eq)
      (Option.some_ne_none _).symm
  rw [sendto_known heavy.known heavy.unlimited nothing nonempty, sends]
  rfl

end Heavy

/-- As many bytes as an `int` counts. -/
def bigBlob : List UInt8 := List.replicate 2147483647 0

theorem length_bigBlob : bigBlob.length = 2147483647 := List.length_replicate

theorem heavy_oneFlow : oneFlow.Heavy 1 0 where
  known := live_oneFlow.known
  type_eq := oneFlow_getcc.2.2.1
  sound := live_oneFlow.modest.toSound
  finBit_eq := live_oneFlow.modest.finBit_eq
  front := by rw [oneFlow_getcc.2.2.2]; rfl
  length_eq := by rw [oneFlow_getcc.2.2.2]; rfl
  unlimited := rfl

/-- When there are 2^32 - 2 bytes in the write cache, two more are written behind its block. -/
theorem flowReaches_overflow : ∃ state, FlowReaches oneFlow 1 state ∧ ¬state.commu.Closed 1 ∧
    (state.commu.conns.getcc 1).w.dataLen = 4294967294 ∧ FlowEvent.Fits (.sendto nothing [7, 7]) ∧
    (FlowEvent.sendto nothing [7, 7]).perform state.commu 1 = none := by
  have nonempty : bigBlob ≠ [] := by
    rw [← List.length_pos_iff, length_bigBlob]
    decide
  have fits : FlowEvent.Fits (.sendto nothing bigBlob) := by
    refine ⟨nonempty, ?_⟩
    rw [length_bigBlob]
    decide
  obtain ⟨first, first_eq, first_heavy⟩ := heavy_oneFlow.sendto_nothing nonempty
    (by rw [length_bigBlob]; decide)
  rw [length_bigBlob] at first_heavy
  obtain ⟨second, second_eq, second_heavy⟩ := first_heavy.sendto_nothing nonempty
    (by rw [length_bigBlob]; decide)
  rw [length_bigBlob] at second_heavy
  have first_reaches : FlowReaches oneFlow 1 ⟨first.commu, [] ++ first.accepted, [] ++ bigBlob⟩ :=
    FlowReaches.tail ⟨live_oneFlow,
      Relation.ReflTransGen.refl⟩ fits heavy_oneFlow.not_closed first_eq
  exact ⟨_, first_reaches.tail fits first_heavy.not_closed second_eq, second_heavy.not_closed,
    second_heavy.length_eq.trans (by decide),
    ⟨by decide, by decide⟩,
    second_heavy.sendto_overflow (by decide) (by decide) (by decide)⟩

end CTSockCommu

end Spp
