import Spp.Lib.Executions
import Spp.MicroThread.EpollSchedule

/-!
# Threads that wait to write on a shared UDP socket

The actions of type `CONN_TYPE_SESSION` share the socket of a `UdpSessionNtfy`.  A thread whose
`sendto` would block waits for `EPOLLOUT` through its own `SessionProxy`: the proxy adds the bit to
the socket of the notify object and enters its `_write_list`, and when the wait ends, woken or timed
out, it leaves the list and takes the bit away.  A hang-up replaces the socket.

Every `epoll_ctl` succeeds.  Notify objects are of a type `ω`, proxies of a type `π`.
-/

namespace Spp

namespace EpollerObj

/-- `EnableOutput` -/
def enableOutput (obj : EpollerObj) : EpollerObj :=
  { obj with events := { obj.events with output := true } }

/-- `DisableInput` -/
def disableInput (obj : EpollerObj) : EpollerObj :=
  { obj with events := { obj.events with input := false } }

end EpollerObj

namespace EpollEvents

/-- `EPOLLIN` -/
def epollin : EpollEvents := ⟨true, false⟩

/-- `EPOLLOUT` -/
def epollout : EpollEvents := ⟨false, true⟩

end EpollEvents

/-- `EpollNtfyReg` -/
def EpollProxy.epollNtfyReg {ω : Type} (proxy : EpollProxy ω) (fd : Int) (obj : Option ω) :
    EpollProxy ω :=
  match proxy.fdRefGet fd with
  | none => proxy
  | some _ => proxy.setNotifyObj fd obj

/-- A `UdpSessionNtfy` with the proxies of its waiters and the table of descriptors. -/
structure UdpSessionNtfy (ω π : Type) where
  table : EpollProxy ω
  obj : EpollerObj
  opened : Bool
  writeList : List π
  flag : π → Bool
  proxyFd : π → Int
  notified : π → Bool
  /-- The thread of a proxy is between the registration and the removal of its wait. -/
  waiting : π → Bool

namespace UdpSessionNtfy

variable {ω π : Type} [DecidableEq ω] [DecidableEq π] (self : ω)

/-! ## The socket -/

/-- `CreateSocket`; `socket` is the new descriptor, if there is one. -/
def createSocket (ntfy : UdpSessionNtfy ω π) (socket : Option Int) : UdpSessionNtfy ω π :=
  match socket with
  | none => ntfy
  | some osfd =>
      { ntfy with
        obj := (ntfy.obj.setOsfd osfd).enableInput
        opened := true
        table := ((ntfy.table.epollNtfyReg osfd (some self)).epollCtrlAdd osfd .epollin .ok).2 }

/-- `CloseSocket` -/
def closeSocket (ntfy : UdpSessionNtfy ω π) : UdpSessionNtfy ω π :=
  if ntfy.obj.fd > 0 then
    { ntfy with
      obj := ntfy.obj.disableInput.setOsfd (-1)
      opened := false
      table := (ntfy.table.epollCtrlDel ntfy.obj.fd .epollin .ok).2.epollNtfyReg ntfy.obj.fd none }
  else
    ntfy

/-- `HangupNotify` -/
def hangupNotify (ntfy : UdpSessionNtfy ω π) (socket : Option Int) : UdpSessionNtfy ω π :=
  let ntfy := { ntfy with table := (ntfy.table.epollCtrlDel ntfy.obj.fd ntfy.obj.events .ok).2 }
  createSocket self ntfy.closeSocket socket

/-- `EpollCtlAdd`; `args` is the descriptor whose entry is given. -/
def epollCtlAdd (ntfy : UdpSessionNtfy ω π) (args : Int) : Int × UdpSessionNtfy ω π :=
  let oldObj := (ntfy.table.eprefs args).epobj
  if oldObj ≠ none ∧ oldObj ≠ some self then
    (-1, ntfy)
  else
    let added := ntfy.table.epollCtrlAdd ntfy.obj.fd .epollout .ok
    if added.1 then
      (0, { ntfy with table := added.2, obj := ntfy.obj.enableOutput })
    else
      (-2, { ntfy with table := added.2 })

/-- `EpollCtlDel`; `args` is the descriptor whose entry is given. -/
def epollCtlDel (ntfy : UdpSessionNtfy ω π) (args : Int) : Int × UdpSessionNtfy ω π :=
  let oldObj := (ntfy.table.eprefs args).epobj
  if oldObj ≠ some self then
    (-1, ntfy)
  else
    let deleted := ntfy.table.epollCtrlDel ntfy.obj.fd .epollout .ok
    if deleted.1 then
      (0, { ntfy with table := deleted.2, obj := ntfy.obj.disableOutput })
    else
      (-2, { ntfy with table := deleted.2 })

/-! ## The waiters -/

/-- `InsertWriteWait` -/
def insertWriteWait (ntfy : UdpSessionNtfy ω π) (proxy : π) : UdpSessionNtfy ω π :=
  if ntfy.flag proxy then
    ntfy
  else
    { ntfy with
      writeList := ntfy.writeList ++ [proxy]
      flag := Function.update ntfy.flag proxy true }

/-- `RemoveWriteWait` -/
def removeWriteWait (ntfy : UdpSessionNtfy ω π) (proxy : π) : UdpSessionNtfy ω π :=
  if ntfy.flag proxy then
    { ntfy with
      writeList := ntfy.writeList.erase proxy
      flag := Function.update ntfy.flag proxy false }
  else
    ntfy

/-- `NotifyWriteWait`, which also makes the threads runnable. -/
def notifyWriteWait (ntfy : UdpSessionNtfy ω π) : UdpSessionNtfy ω π :=
  { ntfy with notified := fun proxy => ntfy.notified proxy || proxy ∈ ntfy.writeList }

/-- `SessionProxy::EpollCtlAdd` of a proxy that waits for `EPOLLOUT`. -/
def proxyCtlAdd (ntfy : UdpSessionNtfy ω π) (proxy : π) (args : Int) : Int × UdpSessionNtfy ω π :=
  let added := ntfy.epollCtlAdd self args
  if added.1 < 0 then (-2, added.2) else (0, added.2.insertWriteWait proxy)

/-- `SessionProxy::EpollCtlDel` of a proxy that waits for `EPOLLOUT`. -/
def proxyCtlDel (ntfy : UdpSessionNtfy ω π) (proxy : π) (args : Int) : Int × UdpSessionNtfy ω π :=
  (ntfy.removeWriteWait proxy).epollCtlDel self args

/-- `EpollAddObj` of a proxy. -/
def epollAddObj (ntfy : UdpSessionNtfy ω π) (proxy : π) : Bool × UdpSessionNtfy ω π :=
  match ntfy.table.fdRefGet (ntfy.proxyFd proxy) with
  | none => (false, ntfy)
  | some _ =>
      let added := ntfy.proxyCtlAdd self proxy (ntfy.proxyFd proxy)
      (!decide (added.1 < 0), added.2)

/-- `EpollDelObj` of a proxy. -/
def epollDelObj (ntfy : UdpSessionNtfy ω π) (proxy : π) : Bool × UdpSessionNtfy ω π :=
  match ntfy.table.fdRefGet (ntfy.proxyFd proxy) with
  | none => (false, ntfy)
  | some _ =>
      let deleted := ntfy.proxyCtlDel self proxy (ntfy.proxyFd proxy)
      (!decide (deleted.1 < 0), deleted.2)

/-- A thread starts to wait; it does if its proxy can be added. -/
def startWait (ntfy : UdpSessionNtfy ω π) (proxy : π) : UdpSessionNtfy ω π :=
  let ntfy := { ntfy with notified := Function.update ntfy.notified proxy false }
  let added := ntfy.epollAddObj self proxy
  { added.2 with waiting := Function.update added.2.waiting proxy added.1 }

/-- A thread that waited was woken or timed out, and removes its proxy. -/
def endWait (ntfy : UdpSessionNtfy ω π) (proxy : π) : UdpSessionNtfy ω π :=
  let deleted := ntfy.epollDelObj self proxy
  { deleted.2 with waiting := Function.update deleted.2.waiting proxy false }

/-- `UdpSessionConn::CreateSocket`: the proxy takes over the descriptor of the notify object, for
which a socket is created if it has none. -/
def openProxy (ntfy : UdpSessionNtfy ω π) (proxy : π) (socket : Option Int) : UdpSessionNtfy ω π :=
  if ntfy.obj.fd ≤ 0 then
    let osfd := socket.getD (-1)
    let ntfy := createSocket self ntfy socket
    if osfd ≤ 0 then ntfy else { ntfy with proxyFd := Function.update ntfy.proxyFd proxy osfd }
  else
    { ntfy with proxyFd := Function.update ntfy.proxyFd proxy ntfy.obj.fd }

/-! ## Interleavings -/

/-- What the threads and `epoll` do. -/
inductive Event (ω π : Type) where
  | openProxy (proxy : π) (socket : Option Int)
  | startWait (proxy : π)
  | endWait (proxy : π)
  | outputNotify
  | hangupNotify (socket : Option Int)
  /-- Another object changes the entry of its descriptor. -/
  | other (fd : Int) (item : FdRef ω)

/-- One step of a thread or of `epoll`. -/
def step (ntfy : UdpSessionNtfy ω π) : Event ω π → Option (UdpSessionNtfy ω π)
  | .openProxy proxy socket =>
      if ntfy.waiting proxy then none else some (ntfy.openProxy self proxy socket)
  | .startWait proxy => if ntfy.waiting proxy then none else some (ntfy.startWait self proxy)
  | .endWait proxy => if ntfy.waiting proxy then some (ntfy.endWait self proxy) else none
  | .outputNotify => some ntfy.notifyWriteWait
  | .hangupNotify socket => some (ntfy.hangupNotify self socket)
  | .other fd item =>
      if ntfy.opened ∧ fd = ntfy.obj.fd then none
      else some { ntfy with table := ntfy.table.setRef fd item }

/-- A notify object with its first socket `osfd` and proxies that nobody waits through. -/
def start (table : EpollProxy ω) (osfd : Int) (proxyFd : π → Int) : UdpSessionNtfy ω π :=
  createSocket self
    { table
      obj := ⟨0, .zero⟩
      opened := false
      writeList := []
      flag := fun _ => false
      proxyFd
      notified := fun _ => false
      waiting := fun _ => false } (some osfd)

/-- The socket that the notify object owns is listened to for `events`. -/
def Listens (ntfy : UdpSessionNtfy ω π) (events : EpollEvents) : Prop :=
  (ntfy.table.eprefs ntfy.obj.fd).events.or events = (ntfy.table.eprefs ntfy.obj.fd).events

/-- Nobody on the list is forgotten: while someone is, the socket is listened to for output; while
it is open, it is listened to for input; and the list holds the proxies of the threads that wait. -/
def Attended (ntfy : UdpSessionNtfy ω π) : Prop :=
  (ntfy.writeList ≠ [] → ntfy.opened ∧ ntfy.Listens .epollout) ∧
    (ntfy.opened → ntfy.Listens .epollin) ∧
    ∀ proxy, proxy ∈ ntfy.writeList ↔ ntfy.waiting proxy

/-- A new descriptor is one of the table. -/
def inTable (ntfy : UdpSessionNtfy ω π) (socket : Option Int) : Bool :=
  match socket with
  | none => true
  | some osfd => 0 ≤ osfd ∧ osfd < ntfy.table.maxfd

/-- The last waiter leaves, or one whose descriptor the notify object has left; the socket is
replaced or created while nobody waits, and its descriptor is in the table; a socket with the
descriptor 0, which `CloseSocket` does not close, is replaced by another. -/
def safe (ntfy : UdpSessionNtfy ω π) : Event ω π → Bool
  | .openProxy _ socket => 0 < ntfy.obj.fd ∨ ntfy.writeList = [] ∧ ntfy.inTable socket
  | .endWait proxy =>
      (∀ other ∈ ntfy.writeList, other = proxy) ∨
        (ntfy.table.eprefs (ntfy.proxyFd proxy)).epobj ≠ some self
  | .hangupNotify socket =>
      ntfy.writeList = [] ∧ ntfy.inTable socket ∧ (ntfy.obj.fd = 0 → socket ≠ none)
  | _ => true

end UdpSessionNtfy

/-! ## The table, when `epoll_ctl` succeeds -/

namespace EpollProxy

variable {ω : Type} {proxy : EpollProxy ω} {fd : Int}

theorem epollCtrlAdd_ok (fd_nonneg : 0 ≤ fd) (fd_lt : fd < proxy.maxfd) (events : EpollEvents) :
    proxy.epollCtrlAdd fd events .ok =
      (true, proxy.setRef fd { (proxy.eprefs fd).attachEvents events with
        events := (proxy.eprefs fd).events.or events }) :=
  (epollCtrlAdd_eq proxy fd_nonneg fd_lt).1 (.inr (.inl rfl))

theorem epollCtrlDel_ok (fd_nonneg : 0 ≤ fd) (fd_lt : fd < proxy.maxfd) (events : EpollEvents) :
    proxy.epollCtrlDel fd events .ok =
      (true, proxy.setRef fd { (proxy.eprefs fd).detachEvents events with
        events := (proxy.eprefs fd).events.andNot events }) :=
  (epollCtrlDelRef_eq proxy fd_nonneg fd_lt).1 (.inr (.inl rfl))

theorem epollCtrlAdd_of_neg (fd_neg : fd < 0) (events : EpollEvents) (ctl : EpollCtl) :
    proxy.epollCtrlAdd fd events ctl = (false, proxy) := by
  have no_entry : proxy.fdRefGet fd = none := if_pos (.inr fd_neg)
  rw [epollCtrlAdd, no_entry]

theorem epollCtrlDel_maxfd (events : EpollEvents) (ctl : EpollCtl) :
    (proxy.epollCtrlDel fd events ctl).2.maxfd = proxy.maxfd :=
  (epollCtrlDel_changes rfl).maxfd_eq

theorem epollNtfyReg_maxfd (target : Option ω) :
    (proxy.epollNtfyReg fd target).maxfd = proxy.maxfd := by
  unfold epollNtfyReg
  split <;> rfl

end EpollProxy

namespace UdpSessionNtfy

variable {ω π : Type} [DecidableEq ω] [DecidableEq π] {self : ω} {ntfy : UdpSessionNtfy ω π}
  {proxy : π} {socket : Option Int}

omit [DecidableEq ω] [DecidableEq π] in
theorem listens_epollin_iff :
    ntfy.Listens .epollin ↔ (ntfy.table.eprefs ntfy.obj.fd).events.input = true := by
  unfold Listens
  obtain ⟨input, output⟩ := (ntfy.table.eprefs ntfy.obj.fd).events
  cases input <;> cases output <;> decide

omit [DecidableEq ω] [DecidableEq π] in
theorem listens_epollout_iff :
    ntfy.Listens .epollout ↔ (ntfy.table.eprefs ntfy.obj.fd).events.output = true := by
  unfold Listens
  obtain ⟨input, output⟩ := (ntfy.table.eprefs ntfy.obj.fd).events
  cases input <;> cases output <;> decide

/-! ## What the steps keep -/

/-- The list holds the proxies of the threads that wait, and their flags tell. -/
structure Queued (ntfy : UdpSessionNtfy ω π) : Prop where
  mem_iff : ∀ proxy, proxy ∈ ntfy.writeList ↔ ntfy.waiting proxy = true
  flag_iff : ∀ proxy, ntfy.flag proxy = true ↔ proxy ∈ ntfy.writeList
  nodup : ntfy.writeList.Nodup
  proxy_range : ∀ proxy, ntfy.waiting proxy = true →
    0 ≤ ntfy.proxyFd proxy ∧ ntfy.proxyFd proxy < ntfy.table.maxfd

/-- The socket is listened to for input, and for output if someone waits. -/
structure Tended (ntfy : UdpSessionNtfy ω π) : Prop where
  closed : ntfy.opened = false → ntfy.obj.fd = -1
  range : ntfy.opened = true → 0 ≤ ntfy.obj.fd ∧ ntfy.obj.fd < ntfy.table.maxfd
  input : ntfy.opened = true → (ntfy.table.eprefs ntfy.obj.fd).events.input = true
  output : ntfy.writeList ≠ [] →
    ntfy.opened = true ∧ (ntfy.table.eprefs ntfy.obj.fd).events.output = true

section Keeps

omit [DecidableEq ω] [DecidableEq π]

theorem Queued.congr {other : UdpSessionNtfy ω π} (queued : Queued ntfy)
    (list_eq : other.writeList = ntfy.writeList) (flag_eq : other.flag = ntfy.flag)
    (waiting_eq : other.waiting = ntfy.waiting) (proxyFd_eq : other.proxyFd = ntfy.proxyFd)
    (maxfd_eq : other.table.maxfd = ntfy.table.maxfd) : Queued other := by
  obtain ⟨mem_iff, flag_iff, nodup, proxy_range⟩ := queued
  constructor
  · rw [list_eq, waiting_eq]
    exact mem_iff
  · rw [flag_eq, list_eq]
    exact flag_iff
  · rw [list_eq]
    exact nodup
  · rw [waiting_eq, proxyFd_eq, maxfd_eq]
    exact proxy_range

theorem tended_createSocket {osfd : Int} (alone : ntfy.writeList = [])
    (range : 0 ≤ osfd ∧ osfd < ntfy.table.maxfd) :
    Tended (createSocket self ntfy (some osfd)) ∧
      (createSocket self ntfy (some osfd)).table.maxfd = ntfy.table.maxfd := by
  obtain ⟨osfd_nonneg, osfd_lt⟩ := range
  have lt_table : osfd < (ntfy.table.epollNtfyReg osfd (some self)).maxfd := by
    rw [EpollProxy.epollNtfyReg_maxfd]
    exact osfd_lt
  have added := EpollProxy.epollCtrlAdd_ok osfd_nonneg lt_table .epollin
  have maxfd_eq : (createSocket self ntfy (some osfd)).table.maxfd = ntfy.table.maxfd := by
    simp only [createSocket, added]
    exact EpollProxy.epollNtfyReg_maxfd _
  refine ⟨⟨nofun, fun _ => ?_, fun _ => ?_, fun someone => absurd alone someone⟩, maxfd_eq⟩
  · rw [maxfd_eq]
    exact ⟨osfd_nonneg, osfd_lt⟩
  · simp only [createSocket, added]
    show ((EpollProxy.setRef _ osfd _).eprefs osfd).events.input = true
    rw [EpollProxy.setRef_eprefs]
    exact Bool.or_true _

theorem Queued.closeSocket (queued : Queued ntfy) : Queued ntfy.closeSocket := by
  unfold UdpSessionNtfy.closeSocket
  split
  · refine queued.congr rfl rfl rfl rfl ?_
    exact (EpollProxy.epollNtfyReg_maxfd _).trans (EpollProxy.epollCtrlDel_maxfd _ _)
  · exact queued

theorem closeSocket_maxfd : ntfy.closeSocket.table.maxfd = ntfy.table.maxfd := by
  unfold UdpSessionNtfy.closeSocket
  split
  · exact (EpollProxy.epollNtfyReg_maxfd _).trans (EpollProxy.epollCtrlDel_maxfd _ _)
  · rfl

theorem closeSocket_writeList : ntfy.closeSocket.writeList = ntfy.writeList := by
  unfold UdpSessionNtfy.closeSocket
  split
  · rfl
  · rfl

end Keeps

section Steps

variable (queued : Queued ntfy) (tended : Tended ntfy)

omit [DecidableEq ω] [DecidableEq π] in
theorem Queued.waiting_eq_false (queued : Queued ntfy) (alone : ntfy.writeList = []) (proxy : π) :
    ntfy.waiting proxy = false := by
  have not_waiting := mt (queued.mem_iff proxy).mpr (alone ▸ List.not_mem_nil)
  exact Bool.eq_false_iff.mpr not_waiting

include queued tended

omit [DecidableEq ω] in
theorem Tended.openProxy (idle : ntfy.waiting proxy = false)
    (safe : 0 < ntfy.obj.fd ∨ ntfy.writeList = [] ∧ ntfy.inTable socket = true) :
    Queued (ntfy.openProxy self proxy socket) ∧ Tended (ntfy.openProxy self proxy socket) := by
  unfold UdpSessionNtfy.openProxy
  by_cases absent : ntfy.obj.fd ≤ 0
  · obtain ⟨alone, in_table⟩ := safe.resolve_left (not_lt.mpr absent)
    rw [if_pos absent]
    cases socket with
    | none => exact ⟨queued, tended⟩
    | some osfd =>
        have range : 0 ≤ osfd ∧ osfd < ntfy.table.maxfd := of_decide_eq_true in_table
        obtain ⟨created, maxfd_eq⟩ := @tended_createSocket ω π self ntfy osfd alone range
        have kept : Queued (createSocket self ntfy (some osfd)) :=
          queued.congr rfl rfl rfl rfl maxfd_eq
        dsimp only [Option.getD_some]
        by_cases zero : osfd ≤ 0
        · rw [if_pos zero]
          exact ⟨kept, created⟩
        · rw [if_neg zero]
          refine ⟨{ kept with proxy_range := fun other waits => ?_ }, { created with }⟩
          have waits : ntfy.waiting other = true := waits
          rw [queued.waiting_eq_false alone other] at waits
          cases waits
  · rw [if_neg absent]
    have range := queued.proxy_range
    refine ⟨{ queued with proxy_range := ?_ }, { tended with }⟩
    simp only [Function.update_apply]
    grind

omit [DecidableEq ω] [DecidableEq π] in
theorem Tended.hangupNotify (alone : ntfy.writeList = []) (in_table : ntfy.inTable socket = true)
    (replaced : ntfy.obj.fd = 0 → socket ≠ none) :
    Queued (ntfy.hangupNotify self socket) ∧ Tended (ntfy.hangupNotify self socket) := by
  obtain ⟨cleared, cleared_eq⟩ : ∃ cleared : UdpSessionNtfy ω π, { ntfy with
      table := (ntfy.table.epollCtrlDel ntfy.obj.fd ntfy.obj.events .ok).2 } = cleared := ⟨_, rfl⟩
  have hung : ntfy.hangupNotify self socket = createSocket self cleared.closeSocket socket := by
    rw [← cleared_eq]
    rfl
  have maxfd_eq : cleared.table.maxfd = ntfy.table.maxfd := by
    rw [← cleared_eq]
    exact EpollProxy.epollCtrlDel_maxfd _ _
  have kept : Queued cleared := by
    rw [← cleared_eq] at maxfd_eq ⊢
    exact queued.congr rfl rfl rfl rfl maxfd_eq
  have list_eq : cleared.closeSocket.writeList = [] := by
    rw [closeSocket_writeList, ← cleared_eq]
    exact alone
  rw [hung]
  cases socket with
  | none =>
      refine ⟨kept.closeSocket, ?_⟩
      have fd_ne : ntfy.obj.fd ≠ 0 := fun zero => replaced zero rfl
      have shut : cleared.closeSocket.opened = false ∧ cleared.closeSocket.obj.fd = -1 := by
        rw [← cleared_eq, UdpSessionNtfy.closeSocket]
        by_cases positive : ntfy.obj.fd > 0
        · rw [if_pos positive]
          exact ⟨rfl, rfl⟩
        · rw [if_neg positive]
          have not_open : ntfy.opened = false := by
            by_contra is_open
            have := (tended.range (Bool.not_eq_false _ ▸ is_open)).1
            omega
          exact ⟨not_open, tended.closed not_open⟩
      obtain ⟨not_open, fd_eq⟩ := shut
      refine ⟨fun _ => fd_eq, fun is_open => ?_, fun is_open => ?_, fun someone => ?_⟩
      · exact absurd (not_open.symm.trans is_open) nofun
      · exact absurd (not_open.symm.trans is_open) nofun
      · exact absurd list_eq someone
  | some osfd =>
      have range : 0 ≤ osfd ∧ osfd < cleared.closeSocket.table.maxfd := by
        rw [closeSocket_maxfd, maxfd_eq]
        exact of_decide_eq_true in_table
      obtain ⟨created, created_maxfd⟩ :=
        @tended_createSocket ω π self cleared.closeSocket osfd list_eq range
      exact ⟨kept.closeSocket.congr rfl rfl rfl rfl created_maxfd, created⟩

omit [DecidableEq π] queued in
theorem epollCtlAdd_cases (args : Int) :
    (∃ error, error < 0 ∧ ntfy.epollCtlAdd self args = (error, ntfy)) ∨
      ntfy.opened = true ∧
        ∃ item : FdRef ω, item.events = (ntfy.table.eprefs ntfy.obj.fd).events.or .epollout ∧
          ntfy.epollCtlAdd self args = (0, { ntfy with
            table := ntfy.table.setRef ntfy.obj.fd item
            obj := ntfy.obj.enableOutput }) := by
  dsimp only [epollCtlAdd]
  by_cases conflict : (ntfy.table.eprefs args).epobj ≠ none ∧
      (ntfy.table.eprefs args).epobj ≠ some self
  · rw [if_pos conflict]
    exact .inl ⟨-1, by decide, rfl⟩
  · rw [if_neg conflict]
    by_cases is_open : ntfy.opened = true
    · obtain ⟨fd_nonneg, fd_lt⟩ := tended.range is_open
      simp only [EpollProxy.epollCtrlAdd_ok fd_nonneg fd_lt, if_true]
      exact .inr ⟨is_open, _, rfl, rfl⟩
    · have fd_neg : ntfy.obj.fd < 0 := by
        rw [tended.closed (Bool.eq_false_iff.mpr is_open)]
        decide
      simp only [EpollProxy.epollCtrlAdd_of_neg fd_neg, Bool.false_eq_true, if_false]
      exact .inl ⟨-2, by decide, rfl⟩

/-- The proxy of a thread that is not waiting is added to the list with the bit set, or nothing
changes. -/
theorem epollAddObj_cases (idle : ntfy.waiting proxy = false) :
    ntfy.epollAddObj self proxy = (false, ntfy) ∨
      (ntfy.opened = true ∧ 0 ≤ ntfy.proxyFd proxy ∧ ntfy.proxyFd proxy < ntfy.table.maxfd) ∧
        ∃ item : FdRef ω, item.events = (ntfy.table.eprefs ntfy.obj.fd).events.or .epollout ∧
          ntfy.epollAddObj self proxy = (true, { ntfy with
            table := ntfy.table.setRef ntfy.obj.fd item
            obj := ntfy.obj.enableOutput
            writeList := ntfy.writeList ++ [proxy]
            flag := Function.update ntfy.flag proxy true }) := by
  have no_flag : ntfy.flag proxy = false := by
    rw [Bool.eq_false_iff, Ne, queued.flag_iff, queued.mem_iff, idle]
    exact Bool.false_ne_true
  by_cases range : 0 ≤ ntfy.proxyFd proxy ∧ ntfy.proxyFd proxy < ntfy.table.maxfd
  · rw [epollAddObj, EpollProxy.fdRefGet_of_lt range.1 range.2]
    obtain ⟨error, error_neg, refused⟩ | ⟨is_open, item, item_events, added⟩ :=
      @epollCtlAdd_cases ω π _ self ntfy tended (ntfy.proxyFd proxy)
    · simp only [proxyCtlAdd, refused, if_pos error_neg]
      exact .inl rfl
    · simp only [proxyCtlAdd, added, Int.lt_irrefl, if_false, insertWriteWait, no_flag,
        Bool.false_eq_true]
      exact .inr ⟨⟨is_open, range⟩, item, item_events, rfl⟩
  · have no_entry : ntfy.table.fdRefGet (ntfy.proxyFd proxy) = none := by
      refine if_pos ?_
      by_contra inside
      exact range ⟨not_lt.mp fun low => inside (.inr low), not_le.mp fun high => inside (.inl high)⟩
    rw [epollAddObj, no_entry]
    exact .inl rfl

/-- A thread that starts to wait is put on the list with the bit set, or does not wait. -/
theorem Tended.startWait (idle : ntfy.waiting proxy = false) :
    Queued (ntfy.startWait self proxy) ∧ Tended (ntfy.startWait self proxy) := by
  obtain ⟨fresh, fresh_eq⟩ : ∃ fresh : UdpSessionNtfy ω π,
      { ntfy with notified := Function.update ntfy.notified proxy false } = fresh := ⟨_, rfl⟩
  have started : ntfy.startWait self proxy = { (fresh.epollAddObj self proxy).2 with
      waiting := Function.update (fresh.epollAddObj self proxy).2.waiting proxy
        (fresh.epollAddObj self proxy).1 } := by
    rw [← fresh_eq]
    rfl
  have fresh_queued : Queued fresh := by
    rw [← fresh_eq]
    exact queued.congr rfl rfl rfl rfl rfl
  have fresh_tended : Tended fresh := by
    rw [← fresh_eq]
    exact { tended with }
  have fresh_idle : fresh.waiting proxy = false := by
    rw [← fresh_eq]
    exact idle
  clear fresh_eq queued tended idle
  rw [started]
  obtain refused | ⟨⟨is_open, range⟩, item, item_events, added⟩ :=
    @epollAddObj_cases ω π _ _ self fresh proxy fresh_queued fresh_tended fresh_idle
  · rw [refused]
    have same : Function.update fresh.waiting proxy false = fresh.waiting := by
      rw [← fresh_idle, Function.update_eq_self]
    dsimp only
    rw [same]
    exact ⟨fresh_queued, fresh_tended⟩
  · rw [added]
    have not_listed : proxy ∉ fresh.writeList := by
      rw [fresh_queued.mem_iff, fresh_idle]
      exact Bool.false_ne_true
    obtain ⟨mem_iff, flag_iff, nodup, proxy_range⟩ := fresh_queued
    obtain ⟨closed, in_range, input, -⟩ := fresh_tended
    have maxfd_eq : (fresh.table.setRef fresh.obj.fd item).maxfd = fresh.table.maxfd := rfl
    refine ⟨⟨?_, ?_, ?_, ?_⟩, closed, in_range, ?_, ?_⟩ <;>
      simp only [Function.update_apply, EpollProxy.setRef_eprefs, item_events, EpollEvents.or,
        EpollEvents.epollout, EpollerObj.enableOutput, maxfd_eq] <;> grind

/-- The proxy of a thread that waits leaves the list, and the bit is cleared if the notify object is
still that of the descriptor of the proxy. -/
theorem endWait_eq (waits : ntfy.waiting proxy = true) :
    ∃ (table : EpollProxy ω) (obj : EpollerObj), ntfy.endWait self proxy = { ntfy with
        table
        obj
        writeList := ntfy.writeList.erase proxy
        flag := Function.update ntfy.flag proxy false
        waiting := Function.update ntfy.waiting proxy false } ∧
      table.maxfd = ntfy.table.maxfd ∧ obj.fd = ntfy.obj.fd ∧
      (table = ntfy.table ∨ (ntfy.table.eprefs (ntfy.proxyFd proxy)).epobj = some self ∧
        (table.eprefs ntfy.obj.fd).events =
          (ntfy.table.eprefs ntfy.obj.fd).events.andNot .epollout) := by
  have listed : proxy ∈ ntfy.writeList := (queued.mem_iff proxy).mpr waits
  have flagged : ntfy.flag proxy = true := (queued.flag_iff proxy).mpr listed
  have is_open : ntfy.opened = true := (tended.output (List.ne_nil_of_mem listed)).1
  obtain ⟨fd_nonneg, fd_lt⟩ := tended.range is_open
  obtain ⟨proxy_nonneg, proxy_lt⟩ := queued.proxy_range proxy waits
  rw [UdpSessionNtfy.endWait, epollDelObj, EpollProxy.fdRefGet_of_lt proxy_nonneg proxy_lt]
  simp only [proxyCtlDel, removeWriteWait, flagged, if_true, epollCtlDel,
    EpollProxy.epollCtrlDel_ok fd_nonneg fd_lt]
  by_cases own : (ntfy.table.eprefs (ntfy.proxyFd proxy)).epobj = some self
  · simp only [own, ne_eq, not_true_eq_false, if_false]
    refine ⟨_, _, rfl, rfl, rfl, .inr ⟨trivial, ?_⟩⟩
    rw [EpollProxy.setRef_eprefs]
  · simp only [own, ne_eq, not_false_eq_true, if_true]
    exact ⟨_, _, rfl, rfl, rfl, .inl rfl⟩

/-- The last waiter ends its wait, or one whose descriptor is not that of the notify object. -/
theorem Tended.endWait (waits : ntfy.waiting proxy = true)
    (safe : (∀ other ∈ ntfy.writeList, other = proxy) ∨
      (ntfy.table.eprefs (ntfy.proxyFd proxy)).epobj ≠ some self) :
    Queued (ntfy.endWait self proxy) ∧ Tended (ntfy.endWait self proxy) := by
  obtain ⟨table, obj, ended, maxfd_eq, fd_eq, table_cases⟩ :=
    @endWait_eq ω π _ _ self ntfy proxy queued tended waits
  obtain ⟨mem_iff, flag_iff, nodup, proxy_range⟩ := queued
  obtain ⟨closed, range, input, output⟩ := tended
  have mem_erase : ∀ other, other ∈ ntfy.writeList.erase proxy ↔
      other ≠ proxy ∧ other ∈ ntfy.writeList := fun other => nodup.mem_erase_iff
  rw [ended]
  refine ⟨⟨?_, ?_, nodup.erase _, ?_⟩, fd_eq.trans ∘ closed, ?_, ?_, fun someone => ?_⟩ <;>
    simp only [Function.update_apply, fd_eq, maxfd_eq, mem_erase]
  · grind
  · grind
  · grind
  · exact range
  · grind [EpollEvents.andNot, EpollEvents.epollout]
  · have someone : ntfy.writeList.erase proxy ≠ [] := someone
    obtain ⟨other, left⟩ := List.exists_mem_of_ne_nil _ someone
    obtain ⟨different, listed⟩ := (mem_erase other).mp left
    obtain ⟨is_open, listens⟩ := output (List.ne_nil_of_mem listed)
    obtain rfl | ⟨own, _⟩ := table_cases
    · exact ⟨is_open, listens⟩
    · obtain last | elsewhere := safe
      · exact absurd (last other listed) different
      · exact absurd own elsewhere

omit [DecidableEq ω] [DecidableEq π] in
theorem Tended.other {fd : Int} {item : FdRef ω} (apart : ¬ (ntfy.opened ∧ fd = ntfy.obj.fd)) :
    Queued { ntfy with table := ntfy.table.setRef fd item } ∧
      Tended { ntfy with table := ntfy.table.setRef fd item } := by
  obtain ⟨closed, range, input, output⟩ := tended
  refine ⟨queued.congr rfl rfl rfl rfl rfl, closed, range, ?_, ?_⟩ <;>
    simp only [EpollProxy.setRef, Function.update_apply] <;> grind

theorem Tended.step {event : Event ω π} {next : UdpSessionNtfy ω π}
    (safe : ntfy.safe self event = true) (stepped : ntfy.step self event = some next) :
    Queued next ∧ Tended next := by
  cases event with
  | openProxy proxy socket =>
      obtain ⟨idle, stepped⟩ := Option.ite_none_left_eq_some.mp stepped
      cases stepped
      exact tended.openProxy queued (Bool.eq_false_iff.mpr idle) (of_decide_eq_true safe)
  | startWait proxy =>
      obtain ⟨idle, stepped⟩ := Option.ite_none_left_eq_some.mp stepped
      cases stepped
      exact tended.startWait queued (Bool.eq_false_iff.mpr idle)
  | endWait proxy =>
      obtain ⟨waits, stepped⟩ := Option.ite_none_right_eq_some.mp stepped
      cases stepped
      exact tended.endWait queued waits (of_decide_eq_true safe)
  | outputNotify =>
      cases stepped
      exact ⟨queued.congr rfl rfl rfl rfl rfl, tended.closed, tended.range, tended.input,
        tended.output⟩
  | hangupNotify socket =>
      cases stepped
      obtain ⟨alone, in_table, replaced⟩ := of_decide_eq_true safe
      exact tended.hangupNotify queued alone in_table replaced
  | other fd item =>
      obtain ⟨apart, stepped⟩ := Option.ite_none_left_eq_some.mp stepped
      cases stepped
      exact tended.other queued apart

end Steps

/-! ## Runs -/

section Runs

variable {table : EpollProxy ω} {osfd : Int} {proxyFd : π → Int}

omit [DecidableEq ω] [DecidableEq π] in
theorem start_kept (range : 0 ≤ osfd ∧ osfd < table.maxfd) :
    Queued (start self table osfd proxyFd) ∧ Tended (start self table osfd proxyFd) := by
  have created := @tended_createSocket ω π self
    { table, obj := ⟨0, .zero⟩, opened := false, writeList := [], flag := fun _ => false, proxyFd,
      notified := fun _ => false, waiting := fun _ => false } osfd rfl range
  refine ⟨⟨fun proxy => ?_, fun proxy => ?_, List.nodup_nil, nofun⟩, created.1⟩
  · exact ⟨nofun, nofun⟩
  · exact ⟨nofun, nofun⟩

omit [DecidableEq ω] [DecidableEq π] in
theorem attended_of_kept (queued : Queued ntfy) (tended : Tended ntfy) : ntfy.Attended := by
  refine ⟨fun someone => ?_, fun is_open => ?_, queued.mem_iff⟩
  · obtain ⟨is_open, listens⟩ := tended.output someone
    exact ⟨is_open, listens_epollout_iff.mpr listens⟩
  · exact listens_epollin_iff.mpr (tended.input is_open)

/-- In an interleaving whose steps are all safe, nobody on the list is forgotten. -/
theorem safeRun_attended (range : 0 ≤ osfd ∧ osfd < table.maxfd) {ntfy : UdpSessionNtfy ω π}
    (run : Relation.ReflTransGen (fun one other : UdpSessionNtfy ω π => ∃ event,
      one.safe self event = true ∧ one.step self event = some other)
      (start self table osfd proxyFd) ntfy) :
    ntfy.Attended := by
  suffices kept : Queued ntfy ∧ Tended ntfy from attended_of_kept kept.1 kept.2
  induction run with
  | refl => exact start_kept range
  | tail _ stepped induction =>
      obtain ⟨event, safe, stepped⟩ := stepped
      exact induction.2.step induction.1 safe stepped

end Runs

/-- A notify object 0 with the socket 3. -/
def sample : UdpSessionNtfy Nat Nat := start 0 (EpollProxy.new 0) 3 fun _ => 0

/-- Two proxies wait, and the socket can be written. -/
def twoWoken : List (Event Nat Nat) :=
  [.openProxy 0 none, .openProxy 1 none, .startWait 0, .startWait 1, .outputNotify]

theorem twoWoken_isSome :
    (Executions.execute (Executions.guarded (safe 0) (step 0)) sample twoWoken).isSome := by
  decide

theorem twoWoken_attended :
    ((Executions.execute (Executions.guarded (safe 0) (step 0)) sample twoWoken).get
        twoWoken_isSome).writeList = [0, 1] ∧
      ((Executions.execute (Executions.guarded (safe 0) (step 0)) sample twoWoken).get
        twoWoken_isSome).Attended := by
  refine ⟨by decide, ?_⟩
  exact safeRun_attended (by decide)
    (Executions.execute_guarded_run (Option.some_get twoWoken_isSome).symm)

/-- Two proxies wait, and one of them stops. -/
def oneTimedOut : List (Event Nat Nat) :=
  [.openProxy 0 none, .openProxy 1 none, .startWait 0, .startWait 1, .endWait 0]

/-- A hang-up while a proxy waits. -/
def replacedSocket :
    List (Event Nat Nat) := [.openProxy 0 none, .startWait 0, .hangupNotify (some 4)]

theorem oneTimedOut_isSome : (Executions.execute (step 0) sample oneTimedOut).isSome := by
  decide

theorem replacedSocket_isSome : (Executions.execute (step 0) sample replacedSocket).isSome := by
  decide

/-- A thread that times out takes away the bit that another thread waits for, and a socket that
replaces another is not listened to for the thread that waits. -/
theorem run_attended_wrong :
    (∃ ntfy : UdpSessionNtfy Nat Nat, Relation.ReflTransGen
      (fun one other => ∃ event, one.step 0 event = some other) sample ntfy ∧
        ntfy.writeList = [1] ∧ ntfy.obj.fd = 3 ∧ ¬ ntfy.Listens .epollout) ∧
    ∃ ntfy : UdpSessionNtfy Nat Nat, Relation.ReflTransGen
      (fun one other => ∃ event, one.step 0 event = some other) sample ntfy ∧
        ntfy.writeList = [0] ∧ ntfy.obj.fd = 4 ∧ ¬ ntfy.Listens .epollout := by
  constructor
  · refine ⟨(Executions.execute (step 0) sample oneTimedOut).get oneTimedOut_isSome,
      Executions.execute_run (Option.some_get oneTimedOut_isSome).symm, ?_, ?_, ?_⟩
    · decide
    · decide
    · rw [listens_epollout_iff]
      decide
  · refine ⟨(Executions.execute (step 0) sample replacedSocket).get replacedSocket_isSome,
      Executions.execute_run (Option.some_get replacedSocket_isSome).symm, ?_, ?_, ?_⟩
    · decide
    · decide
    · rw [listens_epollout_iff]
      decide

end UdpSessionNtfy

end Spp
