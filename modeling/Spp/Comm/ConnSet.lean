import Spp.Comm.RawCache

/-!
# Client connections, `CConnSet`

The table of connections of `comm/tbase/tsockcommu/tconnset.cpp`.  A connection has a flow number
and stands in the slot that the flow number gives modulo the number of slots; the flow of a free
slot is 0. Each connection has a read cache and a write cache.

What the sockets do is an argument of the calls: the result of `send` and `recv`, the time of the
call, and the memory that a cache gets.
-/

namespace Spp

/-- `TConnExtInfo` -/
structure TConnExtInfo where
  fd : Nat
  type : Nat
  localip : Nat
  localport : Nat
  remoteip : Nat
  remoteport : Nat
  recvtime : Nat
  tvUsec : Nat
  deriving DecidableEq

/-- `ConnCache`, but for the peer address of UDP. -/
structure ConnCache where
  flow : Nat
  fd : Nat
  access : Nat × Nat
  type : Nat
  info : TConnExtInfo
  r : CRawCache
  w : CRawCache

/-- `CConnSet` -/
structure CConnSet where
  ccs : Nat → ConnCache
  maxconn : Nat
  usedflow : Int

/-- `UDP_SOCKET` -/
def udpSocket : Nat := 2

/-- `TCP_SOCKET` -/
def tcpSocket : Nat := 1

/-- `E_NEED_CLOSE` -/
def eNeedClose : Int := 10000

/-- `E_NOT_FINDFD` -/
def eNotFindfd : Int := 20000

/-- `C_NEED_SEND` -/
def cNeedSend : Int := 30000

/-- `E_RECV_DONE` -/
def eRecvDone : Int := 40000

/-- `MAX_FLOW_NUM` -/
def maxFlowNum : Nat := 2147483647

/-- `EAGAIN` -/
def eAgain : Int := 11

/-- `EINPROGRESS` -/
def eInProgress : Int := 115

/-- What a call of the socket does. -/
inductive SocketOutcome where
  /-- It accepts some bytes, at most those that are offered. -/
  | accepted (count : Nat)
  | failed (errno : Nat)
  deriving DecidableEq

/-- What `CSocket::send` returns and gives. -/
structure SocketSent where
  ret : Int
  sentLen : Nat
  accepted : List UInt8

/-- `CSocket::send`, where `sent_len` is 0 before.  A number of bytes that does not fit into `int`
is taken for an error. -/
def socketSend (outcome : SocketOutcome) (bytes : List UInt8) : SocketSent :=
  match outcome with
  | .accepted count =>
      let accepted := bytes.take count
      if i32 accepted.length < 0 then
        ⟨i32 accepted.length, 0, accepted⟩
      else
        ⟨0, accepted.length, accepted⟩
  | .failed errno => ⟨if errno = 0 then -1 else -(errno : Int), 0, []⟩

namespace ConnCache

/-- What a call of the connection gives. -/
structure Sending where
  /-- What it returns, or nothing if it throws. -/
  ret : Option Int
  conn : ConnCache
  accepted : List UInt8

/-- Appends to the write cache, and returns `ret` if it does not throw. -/
def appendW (conn : ConnCache) (fresh : Fresh) (bytes : List UInt8) (ret : Int)
    (accepted : List UInt8) : Option Sending := do
  let appended ← conn.w.append fresh bytes
  return ⟨if appended.thrown then none else some ret, { conn with w := appended.cache }, accepted⟩

/-- `CConnSet::send` where all of the cache has been sent. -/
def sendNew (conn : ConnCache) (outcome : SocketOutcome) (fresh : Fresh) (data : List UInt8)
    (accepted : List UInt8) : Option Sending :=
  let conn := { conn with w := conn.w.skip conn.w.dataLen }
  let sent := socketSend outcome data
  if sent.ret < 0 ∧ sent.ret ≠ -eAgain ∧ sent.ret ≠ -eInProgress then
    some ⟨some (-eNeedClose), conn, accepted ++ sent.accepted⟩
  else if sent.sentLen < data.length then
    conn.appendW fresh (data.drop sent.sentLen) (i32 sent.sentLen) (accepted ++ sent.accepted)
  else
    some ⟨some (i32 sent.sentLen), conn, accepted ++ sent.accepted⟩

/-- `CConnSet::send` of the write cache, and of the new data after it. -/
def sendBoth (conn : ConnCache) (cacheOutcome outcome : SocketOutcome) (fresh : Fresh)
    (data : List UInt8) : Option Sending := do
  let cached ← conn.w.data
  let sent := socketSend cacheOutcome cached
  if sent.ret = -eAgain ∨ (sent.ret = 0 ∧ sent.sentLen < conn.w.dataLen) then
    let conn := { conn with w := conn.w.skip sent.sentLen }
    conn.appendW fresh data 0 sent.accepted
  else if sent.ret < 0 then
    return ⟨some (-eNeedClose), conn, sent.accepted⟩
  else
    conn.sendNew outcome fresh data sent.accepted

/-- `CConnSet::send` on the connection of the flow. -/
def send (conn : ConnCache) (now : Nat × Nat) (cacheOutcome outcome : SocketOutcome) (fresh : Fresh)
    (data : List UInt8) : Option Sending :=
  let conn := { conn with access := now }
  if conn.w.dataLen ≠ 0 then
    conn.sendBoth cacheOutcome outcome fresh data
  else
    conn.sendNew outcome fresh data []

/-- `CConnSet::sendfromcache` where the write cache has bytes. -/
def sendCached (conn : ConnCache) (outcome : SocketOutcome) : Option Sending := do
  let cached ← conn.w.data
  let sent := socketSend outcome cached
  if sent.ret = 0 then
    if sent.sentLen = 0 then
      return ⟨some cNeedSend, conn, sent.accepted⟩
    else if sent.sentLen = conn.w.dataLen then
      return ⟨some 0, { conn with w := conn.w.skip sent.sentLen }, sent.accepted⟩
    else
      return ⟨some (i32 sent.sentLen), { conn with w := conn.w.skip sent.sentLen }, sent.accepted⟩
  else if sent.ret = -eAgain then
    return ⟨some cNeedSend, conn, sent.accepted⟩
  else
    return ⟨some (-eNeedClose), conn, sent.accepted⟩

/-- `CConnSet::sendfromcache` on the connection of the flow. -/
def sendfromcache (conn : ConnCache) (now : Nat × Nat) (outcome : SocketOutcome) : Option Sending :=
  let conn := { conn with access := now }
  if conn.w.dataLen = 0 then
    some ⟨some 0, conn, []⟩
  else
    conn.sendCached outcome

/-- What `CConnSet::closeconn` leaves of a connection. -/
def close (conn : ConnCache) : ConnCache :=
  let w := conn.w.skip conn.w.dataLen
  { conn with
    flow := 0, access := (0, 0), type := 0, r := conn.r.skip conn.r.dataLen
    w := { w with finBit := false } }

end ConnCache

namespace CConnSet

/-- The connection of a flow. -/
def getcc (conns : CConnSet) (flow : Nat) : ConnCache := conns.ccs (flow % conns.maxconn)

/-- The connection of a flow changes. -/
def setcc (conns : CConnSet) (flow : Nat) (conn : ConnCache) : CConnSet :=
  { conns with ccs := Function.update conns.ccs (flow % conns.maxconn) conn }

/-- A flow that its slot does not know. -/
def Unknown (conns : CConnSet) (flow : Nat) : Prop := (conns.getcc flow).flow ≠ flow ∨ flow = 0

instance (conns : CConnSet) (flow : Nat) : Decidable (conns.Unknown flow) :=
  inferInstanceAs (Decidable (_ ∨ _))

/-- The next flow in the loop of `addconn`. -/
def nextFlow (flow : Nat) : Nat :=
  let flow := u32 (flow + 1) % maxFlowNum
  if flow = 0 then 1 else flow

/-- The loop of `addconn`: whether there is a free slot, and the flow number. -/
def findFree (conns : CConnSet) : (rounds : Nat) → (flow : Nat) → Bool × Nat
  | 0, flow => (false, flow)
  | rounds + 1, flow =>
      if (conns.getcc (nextFlow flow)).flow = 0 then
        (true, nextFlow flow)
      else
        conns.findFree rounds (nextFlow flow)

/-- A connection gets a flow. -/
def occupy (conns : CConnSet) (flow fd type : Nat) (now : Nat × Nat) : CConnSet :=
  let conn := conns.getcc flow
  { conns.setcc flow { conn with
      flow, fd, type, access := now, info := { conn.info with fd, type } } with
    usedflow := conns.usedflow + 1 }

/-- `addconn`: what it returns, the flow number and the table. -/
def addconn (conns : CConnSet) (flow fd type : Nat) (now : Nat × Nat) : Int × Nat × CConnSet :=
  if (conns.getcc flow).flow > 0 then
    let found := conns.findFree (conns.maxconn - 1) flow
    if found.1 then
      (0, found.2, conns.occupy found.2 fd type now)
    else
      (-1, found.2, conns)
  else
    (0, flow, conns.occupy flow fd type now)

/-- What a call of the set gives. -/
structure Sending where
  /-- What the call returns, or nothing if it throws. -/
  ret : Option Int
  conns : CConnSet
  accepted : List UInt8

/-- The table with what a call did to the connection of a flow. -/
def sent (conns : CConnSet) (flow : Nat) (sending : ConnCache.Sending) : Sending :=
  ⟨sending.ret, conns.setcc flow sending.conn, sending.accepted⟩

/-- `send` -/
def send (conns : CConnSet) (flow : Nat) (now : Nat × Nat) (cacheOutcome outcome : SocketOutcome)
    (fresh : Fresh) (data : List UInt8) : Option Sending :=
  if conns.Unknown flow then
    some ⟨some (-eNotFindfd), conns, []⟩
  else do
    let sending ← (conns.getcc flow).send now cacheOutcome outcome fresh data
    return conns.sent flow sending

/-- `sendfromcache` -/
def sendfromcache (conns : CConnSet) (flow : Nat) (now : Nat × Nat) (outcome : SocketOutcome) :
    Option Sending :=
  if conns.Unknown flow then
    some ⟨some (-eNotFindfd), conns, []⟩
  else do
    let sending ← (conns.getcc flow).sendfromcache now outcome
    return conns.sent flow sending

/-- `closeconn` -/
def closeconn (conns : CConnSet) (flow : Nat) : CConnSet :=
  if conns.Unknown flow then
    conns
  else
    { conns.setcc flow (conns.getcc flow).close with usedflow := conns.usedflow - 1 }

end CConnSet

end Spp
