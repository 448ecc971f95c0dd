import Spp.Lib.MachineInt

/-!
# Requests in parallel, `mt_msg_sendrcv`

`mt_msg_sendrcv` of `sync_frame/micro_thread/mt_concurrent.cpp` sends the requests of a list of
actions and receives their responses.  It gets a connection for each action, creates the sockets,
and then opens, sends and receives in three loops; each loop tries all actions that are not done and
have no error, and waits until one of them is ready or the time is over.  In the end the flag and
the error code of an action decide which callback it gets and whether its connection is kept.

The results of the system calls and of the functions of the user are those of an `ActionIO`, the
readings of the clock those of an `Env`.  Every reading of the clock has a number, and the results
of a round of a loop have the number of the reading that ends the round.
-/

namespace Spp

/-- `MULTI_STATE` -/
inductive MultiState where
  | flagUndef
  | flagInit
  | flagOpen
  | flagSend
  | flagFin
  deriving DecidableEq

/-- `MULTI_PROTO` -/
inductive MultiProto where
  | mtUnknown
  | mtUdp
  | mtTcp
  deriving DecidableEq

/-- `MULTI_CONNECT` -/
inductive MultiConnect where
  | connUnknown
  | connTypeShort
  | connTypeLong
  | connTypeSession
  deriving DecidableEq

/-- `MULTI_ERROR` -/
inductive MultiError where
  | errNone
  | errSocketFail
  | errConnectFail
  | errSendFail
  | errRecvFail
  | errRecvTimeout
  | errEpollFail
  | errFrameError
  | errPeerClose
  | errParamError
  | errMemoryError
  | errEncodeError
  | errDstAddrError
  deriving DecidableEq

/-- The classes of connections, `CONN_OBJ_TYPE`. -/
inductive ConnObjType where
  | objShortConn
  | objTcpKeep
  | objUdpSession
  deriving DecidableEq

/-- `MtMsgBuf`, but for the bytes. -/
structure MtMsgBuf where
  msgLen : Int
  recvLen : Nat
  sendLen : Nat

/-- `IMtConnection`, but for the socket. -/
structure IMtConnection where
  type : ConnObjType
  msgBuff : Option MtMsgBuf
  ntfyObj : Bool

/-- `IMtAction` -/
structure IMtAction where
  flag : MultiState
  proto : MultiProto
  connType : MultiConnect
  errno : MultiError
  conn : Option IMtConnection

/-- `IMtAction::Init` -/
def IMtAction.new : IMtAction where
  flag := .flagUndef
  proto := .mtUdp
  connType := .connTypeShort
  errno := .errNone
  conn := none

/-- The type of connection that `InitConnEnv` asks for. -/
def IMtAction.connObjType (action : IMtAction) : ConnObjType :=
  if action.proto = .mtUdp ∧ action.connType = .connTypeSession then
    .objUdpSession
  else if action.proto = .mtUdp then
    .objShortConn
  else
    .objTcpKeep

namespace MsgSendrcv

/-- What `connect` returns. -/
inductive ConnectResult where
  | ok
  | isConn
  | inProgress
  | failed

/-- What `send` and `sendto` return. -/
inductive SendResult where
  | accepted (count : Nat)
  | again
  | failed

/-- What `recv` and `recvfrom` return. -/
inductive RecvResult where
  | got (count : Nat)
  | again
  | failed

/-- What the outside does for an action. -/
structure ActionIO where
  connection : Bool
  msgBuff : Bool
  ntfyObj : Bool
  encode : Int
  encodeLen : Nat
  socket : Int
  connect : Nat → ConnectResult
  send : Nat → SendResult
  recv : Nat → RecvResult
  input : Nat → Int
  /-- The length of the response that `UdpSessionNtfy` has attached to a session connection. -/
  attached : Nat → Option Int
  cached : Bool

/-- What happens to an action. -/
inductive ActionEvent where
  | opened
  /-- `SendData`: the bytes that the socket takes, and what it returns. -/
  | send (count : Nat) (ret : Int)
  | input (ret : Int)
  | process
  | error (code : MultiError)
  /-- `FreeConnection`; the connection is put into the idle list or not. -/
  | freed (idle : Bool)
  deriving DecidableEq

/-- An action of the list, with what happened to it. -/
structure Request where
  action : IMtAction
  io : ActionIO
  trace : List ActionEvent

namespace Request

/-- `SetErrno` -/
def setErrno (req : Request) (err : MultiError) : Request :=
  { req with action := { req.action with errno := err } }

/-- `SetMsgFlag` -/
def setMsgFlag (req : Request) (flag : MultiState) : Request :=
  { req with action := { req.action with flag } }

/-- `SetIConnection` -/
def setIConnection (req : Request) (conn : Option IMtConnection) : Request :=
  { req with action := { req.action with conn } }

/-- `SetMtMsgBuff` -/
def setMtMsgBuff (req : Request) (conn : IMtConnection) (buff : MtMsgBuf) : Request :=
  req.setIConnection (some { conn with msgBuff := some buff })

/-- An event happens to the action. -/
def record (req : Request) (event : ActionEvent) : Request :=
  { req with trace := req.trace ++ [event] }

/-- The action has no error. -/
def Live (req : Request) : Prop := req.action.errno = .errNone

instance (req : Request) : Decidable req.Live :=
  inferInstanceAs (Decidable (req.action.errno = .errNone))

/-! ## One action -/

/-- `InitConnEnv` -/
def initConnEnv (req : Request) : Int × Request :=
  match req.action.conn with
  | some _ => (-100, req)
  | none =>
      if req.io.connection then
        let conn : IMtConnection := ⟨req.action.connObjType, none, false⟩
        if req.io.msgBuff then
          let conn := { conn with msgBuff := some ⟨0, 0, 0⟩ }
          if req.io.ntfyObj then
            (0, req.setIConnection (some { conn with ntfyObj := true }))
          else
            (-3, req.setIConnection (some conn))
        else
          (-2, req.setIConnection (some conn))
      else
        (-1, req)

/-- `DoEncode` -/
def doEncode (req : Request) : Int × Request :=
  match req.action.conn with
  | some conn =>
      match conn.msgBuff with
      | some buff =>
          if req.io.encode < 0 then
            (req.io.encode, req)
          else
            (0, req.setMtMsgBuff conn { buff with msgLen := req.io.encodeLen })
      | none => (-100, req)
  | none => (-100, req)

/-- `OpenCnnect` -/
def openCnnect (req : Request) (conn : IMtConnection) (tick : Nat) : Int :=
  match conn.type with
  | .objTcpKeep =>
      if conn.msgBuff.isNone then
        -100
      else
        match req.io.connect tick with
        | .ok => 0
        | .isConn => 0
        | .inProgress => -1
        | .failed => -2
  | _ => 0

/-- `SendData` -/
def sendData (req : Request) (conn : IMtConnection) (tick : Nat) : Int × Request :=
  match conn.msgBuff with
  | none => (-100, req)
  | some buff =>
      match conn.type with
      | .objTcpKeep =>
          match req.io.send tick with
          | .failed => (-1, req.record (.send 0 (-1)))
          | .again => (0, req.record (.send 0 0))
          | .accepted count =>
              let sendLen := buff.sendLen + count
              let ret := if (sendLen : Int) ≥ buff.msgLen then buff.msgLen else 0
              (ret, (req.setMtMsgBuff conn { buff with sendLen }).record (.send count ret))
      | _ =>
          match req.io.send tick with
          | .failed => (-2, req.record (.send 0 (-2)))
          | .again => (0, req.record (.send 0 0))
          | .accepted count =>
              (count, (req.setMtMsgBuff conn { buff with sendLen := count }).record
                (.send count count))

/-- `RecvData` -/
def recvData (req : Request) (conn : IMtConnection) (tick : Nat) : Int × Request :=
  match conn.msgBuff with
  | none => (-100, req)
  | some buff =>
      match conn.type with
      | .objUdpSession =>
          match req.io.attached tick with
          | none => (0, req)
          | some len => (len, req)
      | .objTcpKeep =>
          match req.io.recv tick with
          | .failed => (-2, req)
          | .again => (0, req)
          | .got 0 => (-1, req)
          | .got count =>
              let recvLen := buff.recvLen + count
              let ret := req.io.input tick
              let req := req.record (.input ret)
              if ret > 0 then
                (ret, req.setMtMsgBuff conn { buff with recvLen, msgLen := recvLen })
              else if ret = 0 then
                (0, req.setMtMsgBuff conn { buff with recvLen })
              else
                (-1, req.setMtMsgBuff conn { buff with recvLen })
      | .objShortConn =>
          match req.io.recv tick with
          | .failed => (-2, req)
          | .again => (0, req)
          | .got 0 => (-1, req)
          | .got count =>
              let ret := req.io.input tick
              let req := req.record (.input ret)
              if ret > 0 then
                (ret, req.setMtMsgBuff conn { buff with recvLen := count, msgLen := ret })
              else if ret = 0 then
                (0, req.setMtMsgBuff conn { buff with recvLen := count })
              else if ret = -65535 then
                (0, req.setMtMsgBuff conn { buff with recvLen := 0 })
              else
                (-1, req.setMtMsgBuff conn { buff with recvLen := count })

/-- `DoProcess` -/
def doProcess (req : Request) : Request :=
  match req.action.conn with
  | some conn => if conn.msgBuff.isSome then req.record .process else req
  | none => req

/-- `DoError` -/
def doError (req : Request) : Request :=
  req.record (.error req.action.errno)

/-- `IMtAction::Reset`; `FreeConnection` keeps a TCP connection if it is not forced to close it and
`CacheTcpKeepConn` succeeds. -/
def reset (req : Request) : Request :=
  match req.action.conn with
  | some conn =>
      (req.record (.freed (conn.type = .objTcpKeep ∧ req.Live ∧ req.io.cached))).setIConnection none
  | none => req

/-- The last loop of `mt_msg_sendrcv`, for one action. -/
def notify (req : Request) : Request :=
  if req.action.flag ≠ .flagFin then req.doError else req.doProcess

end Request

/-! ## All actions -/

/-- The loop of `mt_multi_newsock`; `hasOk` is its variable `has_ok`. -/
def mtMultiNewsock (hasOk : Bool) : List Request → Int × List Request
  | [] => (if hasOk then 0 else -4, [])
  | req :: rest =>
      if req.Live then
        if req.action.conn.isNone then
          (-2, req.setErrno .errFrameError :: rest)
        else if req.io.socket < 0 then
          (-3, req.setErrno .errSocketFail :: rest)
        else
          let req :=
            if req.action.proto = .mtUdp then
              (req.setMsgFlag .flagOpen).record .opened
            else
              req.setMsgFlag .flagInit
          let tail := mtMultiNewsock true rest
          (tail.1, req :: tail.2)
      else
        let tail := mtMultiNewsock hasOk rest
        (tail.1, req :: tail.2)

/-- What distinguishes the loops of `mt_multi_open`, `mt_multi_sendto` and `mt_multi_recvfrom`. -/
structure Phase where
  done : MultiState
  /-- One try of an action, and whether it is put into the wait list. -/
  attempt : Nat → Request → IMtConnection → Request × Bool
  /-- The result when an action has no connection. -/
  nullRet : Int
  /-- The error of the actions that wait when the time is over. -/
  lateErr : MultiError
  /-- The result when the time is over, from `has_open` or `has_send`. -/
  lateRet : Bool → Int

/-- `mt_multi_open` -/
def mtMultiOpen : Phase where
  done := .flagOpen
  attempt := fun tick req conn =>
    if req.openCnnect conn tick < 0 then
      (req, true)
    else
      ((req.setMsgFlag .flagOpen).record .opened, false)
  nullRet := -1
  lateErr := .errConnectFail
  lateRet := fun hasOpen => if !hasOpen then 0 else -2

/-- `mt_multi_sendto` -/
def mtMultiSendto : Phase where
  done := .flagSend
  attempt := fun tick req conn =>
    let sent := req.sendData conn tick
    if sent.1 = -1 then
      (sent.2.setErrno .errSendFail, false)
    else if sent.1 = 0 then
      (sent.2, true)
    else
      (sent.2.setMsgFlag .flagSend, false)
  nullRet := -2
  lateErr := .errSendFail
  lateRet := fun hasSend => if hasSend then 0 else -5

/-- `mt_multi_recvfrom` -/
def mtMultiRecvfrom : Phase where
  done := .flagFin
  attempt := fun tick req conn =>
    let received := req.recvData conn tick
    if received.1 < 0 then
      (received.2.setErrno .errRecvFail, false)
    else if received.1 = 0 then
      (received.2, true)
    else
      (received.2.setMsgFlag .flagFin, false)
  nullRet := -2
  lateErr := .errRecvTimeout
  lateRet := fun _ => -5

/-- What a pass over the list finds. -/
structure Pass where
  /-- An action has no connection. -/
  aborted : Bool
  /-- An action is done, so that `has_open` or `has_send` is set. -/
  found : Bool
  /-- The actions, and whether they are in the wait list. -/
  reqs : List (Request × Bool)

/-- The loop over the list, in a round. -/
def Phase.pass (phase : Phase) (tick : Nat) : List Request → Pass
  | [] => ⟨false, false, []⟩
  | req :: rest =>
      if req.Live then
        if req.action.flag = phase.done then
          let pass := phase.pass tick rest
          { pass with found := true, reqs := (req, false) :: pass.reqs }
        else
          match req.action.conn with
          | none =>
              ⟨true, false, (req.setErrno .errFrameError, false) :: rest.map fun req =>
                (req, false)⟩
          | some conn =>
              let pass := phase.pass tick rest
              { pass with reqs := phase.attempt tick req conn :: pass.reqs }
      else
        let pass := phase.pass tick rest
        { pass with reqs := (req, false) :: pass.reqs }

/-- How `EpollSchedule` returns to `mt_multi_netfd_poll`. -/
inductive PollResult where
  | ready
  | timedOut
  | failed
  deriving DecidableEq

/-- The last action of the wait list gets an error; whether there is one. -/
def failLast (err : MultiError) : List (Request × Bool) → Bool × List Request
  | [] => (false, [])
  | (req, waits) :: rest =>
      let tail := failLast err rest
      if tail.1 then
        (true, req :: tail.2)
      else if waits then
        (true, req.setErrno err :: tail.2)
      else
        (false, req :: tail.2)

/-- The first action of the wait list without a `_ntfy_obj` gets an error; whether there is one. -/
def failMissing : List (Request × Bool) → Bool × List Request
  | [] => (false, [])
  | (req, waits) :: rest =>
      if waits ∧ ¬ (req.action.conn.any fun conn => conn.ntfyObj) then
        (true, req.setErrno .errFrameError :: rest.map Prod.fst)
      else
        let tail := failMissing rest
        (tail.1, req :: tail.2)

/-- `mt_multi_netfd_poll` -/
def mtMultiNetfdPoll (poll : PollResult) (reqs : List (Request × Bool)) : List Request :=
  if (failMissing reqs).1 then
    (failMissing reqs).2
  else if poll = .failed then
    (failLast .errEpollFail reqs).2
  else
    reqs.map Prod.fst

/-- The time is over: the actions of the wait list get an error. -/
def expire (err : MultiError) (reqs : List (Request × Bool)) : List Request :=
  reqs.map fun req => if req.2 then req.1.setErrno err else req.1

/-- The timeout, the clock and the poller. -/
structure Env where
  timeout : Int
  clock : Nat → Nat
  poll : Nat → PollResult

/-- What follows after a round. -/
inductive Round where
  | again (found : Bool) (reqs : List Request)
  | done (ret : Int) (reqs : List Request)

/-- A round of the loop of a phase. -/
def Phase.round (phase : Phase) (env : Env) (tick endMs : Nat) (found : Bool)
    (reqs : List Request) :
    Round :=
  let pass := phase.pass tick reqs
  if pass.aborted then
    .done phase.nullRet (pass.reqs.map Prod.fst)
  else if env.clock tick > endMs then
    .done (phase.lateRet (found || pass.found)) (expire phase.lateErr pass.reqs)
  else if pass.reqs.any Prod.snd then
    .again (found || pass.found) (mtMultiNetfdPoll (env.poll tick) pass.reqs)
  else
    .done 0 (pass.reqs.map Prod.fst)

/-! ## The call -/

/-- The places in a call of `mt_msg_sendrcv`. -/
inductive Call where
  /-- The first loop: the actions with a connection, and those without. -/
  | init (done todo : List Request)
  | newsock (reqs : List Request)
  | opening (startMs tick endMs : Nat) (hasOpen : Bool) (reqs : List Request)
  | sending (startMs tick endMs : Nat) (hasSend : Bool) (reqs : List Request)
  | receiving (startMs tick endMs : Nat) (reqs : List Request)
  /-- `mt_multi_sendrcv_ex` has returned. -/
  | notifying (reqs : List Request)
  | returned (ret : Int) (reqs : List Request)

/-- The `end_ms` of a phase that begins at the reading `tick` of the clock. -/
def Env.endMs (env : Env) (tick : Nat) (timeout : Int) : Nat :=
  u64 (env.clock tick + timeout)

/-- What `mt_multi_sendrcv_ex` leaves of the time at the reading `tick` of the clock. -/
def Env.left (env : Env) (startMs tick : Nat) : Int :=
  i32 (env.timeout - ((env.clock tick : Int) - startMs))

namespace Call

/-- `mt_msg_sendrcv`, from one loop or round to the next. -/
def step (env : Env) : Call → Option Call
  | .init done [] => some (.newsock done)
  | .init done (req :: todo) =>
      let inited := req.initConnEnv
      if inited.1 < 0 then
        some (.returned (-1) (done ++ inited.2 :: todo))
      else
        let encoded := inited.2.doEncode
        if encoded.1 < 0 then
          some (.init (done ++ [encoded.2.setErrno .errEncodeError]) todo)
        else
          some (.init (done ++ [encoded.2]) todo)
  | .newsock reqs =>
      let made := mtMultiNewsock false reqs
      if made.1 < 0 then
        some (.notifying made.2)
      else
        some (.opening (env.clock 0) 2 (env.endMs 1 env.timeout) false made.2)
  | .opening startMs tick endMs hasOpen reqs =>
      match mtMultiOpen.round env tick endMs hasOpen reqs with
      | .again hasOpen reqs => some (.opening startMs (tick + 1) endMs hasOpen reqs)
      | .done ret reqs =>
          if ret < 0 then
            some (.notifying reqs)
          else
            some (.sending startMs (tick + 3) (env.endMs (tick + 2) (env.left startMs (tick + 1)))
              false reqs)
  | .sending startMs tick endMs hasSend reqs =>
      match mtMultiSendto.round env tick endMs hasSend reqs with
      | .again hasSend reqs => some (.sending startMs (tick + 1) endMs hasSend reqs)
      | .done ret reqs =>
          if ret < 0 then
            some (.notifying reqs)
          else
            some (.receiving startMs (tick + 3) (env.endMs (tick + 2) (env.left startMs (tick + 1)))
              reqs)
  | .receiving startMs tick endMs reqs =>
      match mtMultiRecvfrom.round env tick endMs false reqs with
      | .again _ reqs => some (.receiving startMs (tick + 1) endMs reqs)
      | .done _ reqs => some (.notifying reqs)
  | .notifying reqs => some (.returned 0 ((reqs.map Request.notify).map Request.reset))
  | .returned _ _ => none

/-- The call begins. -/
def start (list : List (IMtAction × ActionIO)) : Call :=
  .init [] (list.map fun entry => ⟨entry.1, entry.2, []⟩)

end Call

end MsgSendrcv

end Spp
