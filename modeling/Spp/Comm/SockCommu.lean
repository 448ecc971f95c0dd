import Spp.Comm.ConnSet

/-!
# The client side of the proxy, `CTSockCommu`

`sendto`, the acceptance of connections and the output part of `poll` of
`comm/tbase/tsockcommu/tsockcommu.cpp`.  The events that `epoll` waits for are part of the state:
for each fd the flow number that comes with an event, and whether `EPOLLOUT` is one of the events.
A connection that is closed loses its fd, and `epoll` forgets it.

The callbacks are left out.  That they do not touch the connections is an assumption.
-/

namespace Spp

/-- `CTSockCommu` -/
structure CTSockCommu where
  conns : CConnSet
  /-- `epollflow_`: the flow of an fd, and whether it waits for `EPOLLOUT`. -/
  epoll : Nat → Option (Nat × Bool)
  sendcacheLimit : Nat
  udpautoclose : Bool
  flow : Nat

/-- What `sendto` and the output part of `poll` lead to. -/
structure SentTo where
  ret : Int
  commu : CTSockCommu
  accepted : List UInt8

/-- The times and the socket of a `sendto`. -/
structure SendtoInput where
  now : Nat × Nat
  cacheOutcome : SocketOutcome
  outcome : SocketOutcome
  fresh : Fresh

namespace CTSockCommu

/-- `closeconn` of the table; the fd of a TCP connection is closed. -/
def closeconn (commu : CTSockCommu) (flow : Nat) : CTSockCommu :=
  let conn := commu.conns.getcc flow
  { commu with
    conns := commu.conns.closeconn flow
    epoll :=
      if commu.conns.Unknown flow ∨ conn.type = udpSocket then
        commu.epoll
      else
        Function.update commu.epoll conn.fd none }

/-- `epollflow_->modify`, which fails for an fd that `epoll` does not know. -/
def modify (commu : CTSockCommu) (fd flow : Nat) (output : Bool) : CTSockCommu :=
  match commu.epoll fd with
  | none => commu
  | some _ => { commu with epoll := Function.update commu.epoll fd (some (flow, output)) }

/-- More waits than `sendcache_limit`. -/
def overSendcacheLimit (commu : CTSockCommu) (conn : ConnCache) : Bool :=
  commu.sendcacheLimit ≠ 0 ∧ conn.w.dataLen > commu.sendcacheLimit

/-- `sendto` of an empty blob: the connection is closed when its write cache is empty. -/
def sendtoClose (commu : CTSockCommu) (flow : Nat) : CTSockCommu :=
  let conn := commu.conns.getcc flow
  if i32 conn.w.dataLen > 0 then
    { commu with
      conns := commu.conns.setcc flow { conn with w := { conn.w with finBit := true } } }
  else
    commu.closeconn flow

/-- `sendto` after `send` has returned `ret`. -/
def sendtoDone (commu : CTSockCommu) (flow : Nat) (length : Nat) (ret : Int) :
    Option CTSockCommu :=
  let conn := commu.conns.getcc flow
  if ret ≥ 0 then
    if ret < length then
      if conn.type ≠ udpSocket then
        some (commu.modify conn.fd flow true)
      else
        some (commu.closeconn flow)
    else if ret ≠ length then
      none
    else if conn.type = udpSocket ∧ commu.udpautoclose then
      some (commu.closeconn flow)
    else
      some commu
  else if ret = -eNeedClose then
    some (commu.closeconn flow)
  else
    some commu

/-- `sendto` of some bytes.  What `send` throws is caught. -/
def sendtoData (commu : CTSockCommu) (flow : Nat) (input : SendtoInput) (data : List UInt8) :
    Option SentTo := do
  let sending ← commu.conns.send flow input.now input.cacheOutcome input.outcome input.fresh data
  let ret := sending.ret.getD (-eNeedClose)
  let commu ← { commu with conns := sending.conns }.sendtoDone flow data.length ret
  return ⟨ret, commu, sending.accepted⟩

/-- `sendto`, where the length of the blob is that of `data`. -/
def sendto (commu : CTSockCommu) (flow : Nat) (input : SendtoInput) (data : List UInt8) :
    Option SentTo :=
  if data.length = 0 ∧ flow > 0 then
    some ⟨0, commu.sendtoClose flow, []⟩
  else if commu.overSendcacheLimit (commu.conns.getcc flow) then
    some ⟨0, commu.closeconn flow, []⟩
  else
    commu.sendtoData flow input data

/-- The output part of `poll` after `sendfromcache` has returned `ret`. -/
def outputDone (commu : CTSockCommu) (fd flow : Nat) (ret : Int) : CTSockCommu :=
  let conn := commu.conns.getcc flow
  let commu := if ret = 0 ∧ conn.w.finBit ∧ i32 conn.w.dataLen = 0 then
    commu.closeconn flow else commu
  if ret = 0 then
    commu.modify fd flow false
  else if ret = -eNeedClose then
    commu.closeconn flow
  else
    commu

/-- The output part of `poll` for an event with an fd and a flow. -/
def output (commu : CTSockCommu) (fd flow : Nat) (now : Nat × Nat) (outcome : SocketOutcome) :
    Option SentTo := do
  let sending ← commu.conns.sendfromcache flow now outcome
  let ret := sending.ret.getD 0
  return ⟨ret, { commu with conns := sending.conns }.outputDone fd flow ret, sending.accepted⟩

/-- `++flow_`, as the acceptance of a connection counts. -/
def countFlow (flow : Nat) : Nat :=
  let flow := u32 (flow + 1)
  if flow ≥ maxFlowNum then 1 else flow

/-- The acceptance of a TCP connection that the callback and `epoll` take. -/
def accept (commu : CTSockCommu) (fd : Nat) (now : Nat × Nat) : CTSockCommu :=
  let added := commu.conns.addconn (countFlow commu.flow) fd tcpSocket now
  if added.1 < 0 then
    { commu with flow := added.2.1 }
  else
    { commu with
      conns := added.2.2, flow := added.2.1
      epoll := Function.update commu.epoll fd (some (added.2.1, false)) }

end CTSockCommu

end Spp
