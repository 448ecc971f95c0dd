import Spp.Comm.SockCommuSend

/-!
# Input of the client side of the proxy

`CConnSet::recv` of `comm/tbase/tsockcommu/tconnset.cpp` and the receive part of `CTSockCommu::poll`
of `comm/tbase/tsockcommu/tsockcommu.cpp`.  The bytes of a socket go to the read cache of its
connection, and the callback `CB_RECVDATA` tells how many bytes of the cache it has processed.

The callback is an argument: it has a state of its own and an input for each call.
-/

namespace Spp

/-- `C_READ_BUFFER_SIZE` -/
def cReadBufferSize : Nat := 65536

/-- What `read` does. -/
inductive ReceiveOutcome where
  /-- It gives some bytes, or none when the peer has closed the connection. -/
  | received (bytes : List UInt8)
  | failed (errno : Nat)

/-- The bytes it gives. -/
def ReceiveOutcome.bytes : ReceiveOutcome → List UInt8
  | .received bytes => bytes
  | .failed _ => []

namespace ConnCache

/-- What `recv` does to a connection. -/
structure Recving where
  /-- What it returns, or nothing if it throws. -/
  ret : Option Int
  conn : ConnCache

/-- The times of a connection are set. -/
def touch (conn : ConnCache) (now : Nat × Nat) : ConnCache :=
  { conn with info := { conn.info with recvtime := now.1, tvUsec := now.2 }, access := now }

/-- What `CConnSet::recv` returns for some bytes. -/
def recvdLen (conn : ConnCache) (length : Nat) : Int :=
  if conn.type ≠ udpSocket ∧ length < cReadBufferSize then -eRecvDone else length

/-- What `CConnSet::recv` returns for an error. -/
def recvError (conn : ConnCache) (errno : Nat) : Int :=
  if conn.type ≠ udpSocket ∧ (errno : Int) = eAgain then -eAgain else -eNeedClose

/-- `CConnSet::recv` on the connection of the flow. -/
def recv (conn : ConnCache) (now : Nat × Nat) (outcome : ReceiveOutcome) (fresh : Fresh) :
    Option Recving :=
  let conn := conn.touch now
  match outcome with
  | .received bytes =>
      if bytes = [] then
        some ⟨some (-eNeedClose), conn⟩
      else do
        let appended ← conn.r.append fresh bytes
        return ⟨if appended.thrown then none else some (conn.recvdLen bytes.length),
          { conn with r := appended.cache }⟩
  | .failed errno => some ⟨some (conn.recvError errno), conn⟩

end ConnCache

/-- What `recv` does to the table. -/
structure CConnSet.Recving where
  /-- What it returns, or nothing if it throws. -/
  ret : Option Int
  conns : CConnSet

/-- `recv` -/
def CConnSet.recv (conns : CConnSet) (flow : Nat) (now : Nat × Nat) (outcome : ReceiveOutcome)
    (fresh : Fresh) : Option Recving :=
  if conns.Unknown flow then
    some ⟨some (-eNotFindfd), conns⟩
  else do
    let recving ← (conns.getcc flow).recv now outcome fresh
    return ⟨recving.ret, conns.setcc flow recving.conn⟩

/-- What happens in one round of the receive part of `poll`. -/
structure RecvInput (ι : Type) where
  now : Nat × Nat
  outcome : ReceiveOutcome
  fresh : Fresh
  callback : ι

namespace CTSockCommu

variable {ι γ : Type}

/-- The state between callbacks. -/
structure Polled (γ : Type) where
  commu : CTSockCommu
  state : γ
  again : Bool

/-- The end of a round, after `CB_RECVDATA` has returned. -/
def recvdataDone (commu : CTSockCommu) (flow : Nat) (protoLen : Int) (state : γ) : Polled γ :=
  if protoLen = 0 then
    ⟨commu, state, true⟩
  else if protoLen > 0 then
    let conn := commu.conns.getcc flow
    ⟨commu.withConn flow { conn with r := conn.r.skip (u32 protoLen) }, state, true⟩
  else
    ⟨commu.closeconn flow, state, false⟩

/-- The call of `CB_RECVDATA` with the bytes of the read cache. -/
def callRecvdata (recvdata : ι → TConnExtInfo → List UInt8 → γ → Option (Int × γ)) (flow : Nat)
    (commu : CTSockCommu) (state : γ) (callback : ι) : Option (Polled γ) := do
  let bytes ← (commu.conns.getcc flow).r.data
  let called ← recvdata callback (commu.conns.getcc flow).info bytes state
  return commu.recvdataDone flow called.1 called.2

/-- One round of the receive part of `poll`.  What `recv` throws is caught. -/
def pollRecvOnce (recvdata : ι → TConnExtInfo → List UInt8 → γ → Option (Int × γ)) (flow : Nat)
    (commu : CTSockCommu) (state : γ) (input : RecvInput ι) : Option (Polled γ) := do
  let recving ← commu.conns.recv flow input.now input.outcome input.fresh
  let commu := { commu with conns := recving.conns }
  let ret := recving.ret.getD (-eNeedClose)
  if ret > 0 ∨ ret = -eRecvDone then
    commu.callRecvdata recvdata flow state input.callback
  else if ret = -eNeedClose then
    return ⟨commu.closeconn flow, state, false⟩
  else
    return ⟨commu, state, false⟩

end CTSockCommu

end Spp
