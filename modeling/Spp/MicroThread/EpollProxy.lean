import Mathlib.Tactic

/-!
# The table of `EpollProxy`

The part of `sync_frame/micro_thread/epoll_proxy.cpp` that keeps, for each file descriptor, the
events it is listened for and the object to notify.  Objects are pointers of a type `ω`.  What
`epoll_ctl` returns is an argument of the functions that may call it.
-/

namespace Spp

/-- `EPOLLIN` and `EPOLLOUT` -/
structure EpollEvents where
  input : Bool
  output : Bool
  deriving DecidableEq

namespace EpollEvents

/-- The mask 0. -/
def zero : EpollEvents := ⟨false, false⟩

/-- The bits of both masks. -/
def or (mask other : EpollEvents) : EpollEvents :=
  ⟨mask.input || other.input, mask.output || other.output⟩

/-- The bits that are not in the other mask. -/
def andNot (mask other : EpollEvents) : EpollEvents :=
  ⟨mask.input && !other.input, mask.output && !other.output⟩

end EpollEvents

/-- What `epoll_ctl` returns: 0, or an error with `errno`. -/
inductive EpollCtl where
  | ok
  | exists
  | noEntry
  | failed
  deriving DecidableEq

/-- What `EpollAddObj` and `EpollDelObj` read of an `EpollerObj`. -/
structure EpollerObj where
  fd : Int
  events : EpollEvents
  deriving DecidableEq

namespace EpollerObj

/-- `EnableInput` -/
def enableInput (obj : EpollerObj) : EpollerObj :=
  { obj with events := { obj.events with input := true } }

/-- `DisableOutput` -/
def disableOutput (obj : EpollerObj) : EpollerObj :=
  { obj with events := { obj.events with output := false } }

/-- `SetOsfd` -/
def setOsfd (obj : EpollerObj) (fd : Int) : EpollerObj :=
  { obj with fd }

end EpollerObj

/-- `FdRef` -/
structure FdRef (ω : Type) where
  wrRef : Nat
  rdRef : Nat
  events : EpollEvents
  epobj : Option ω

namespace FdRef

variable {ω : Type}

/-- `FdRef::FdRef` -/
def new : FdRef ω where
  wrRef := 0
  rdRef := 0
  events := .zero
  epobj := none

/-- `AttachEvents` -/
def attachEvents (item : FdRef ω) (events : EpollEvents) : FdRef ω where
  wrRef := if events.output then item.wrRef + 1 else item.wrRef
  rdRef := if events.input then item.rdRef + 1 else item.rdRef
  events := item.events
  epobj := item.epobj

/-- `DetachEvents`; the counters do not go below 0. -/
def detachEvents (item : FdRef ω) (events : EpollEvents) : FdRef ω where
  wrRef := if events.output then item.wrRef - 1 else item.wrRef
  rdRef := if events.input then item.rdRef - 1 else item.rdRef
  events := item.events
  epobj := item.epobj

end FdRef

/-- `EpollProxy` -/
structure EpollProxy (ω : Type) where
  maxfd : Int
  /-- `_eprefs`, of which the entries 0 to `_maxfd` - 1 exist. -/
  eprefs : Int → FdRef ω

namespace EpollProxy

variable {ω : Type} [DecidableEq ω]

/-- `InitEpoll`, whose table has an entry for each of `_maxfd` descriptors. -/
def new (maxNum : Int) : EpollProxy ω where
  maxfd := if maxNum > 100000 then maxNum else 100000
  eprefs := fun _ => FdRef.new

/-- `FdRefGet` -/
def fdRefGet (proxy : EpollProxy ω) (fd : Int) : Option (FdRef ω) :=
  if fd ≥ proxy.maxfd ∨ fd < 0 then none else some (proxy.eprefs fd)

/-- An entry changes. -/
def setRef (proxy : EpollProxy ω) (fd : Int) (item : FdRef ω) : EpollProxy ω :=
  { proxy with eprefs := Function.update proxy.eprefs fd item }

/-- `EpollCtrlAdd`; `ctl` is what `epoll_ctl` returns if it is called. -/
def epollCtrlAdd (proxy : EpollProxy ω) (fd : Int) (events : EpollEvents) (ctl : EpollCtl) :
    Bool × EpollProxy ω :=
  match proxy.fdRefGet fd with
  | none => (false, proxy)
  | some item =>
      let item := item.attachEvents events
      let newEvents := item.events.or events
      if item.events = newEvents then
        (true, proxy.setRef fd item)
      else if ctl ≠ .ok ∧ ¬ (item.events = .zero ∧ ctl = .exists) then
        (false, proxy.setRef fd (item.detachEvents events))
      else
        (true, proxy.setRef fd { item with events := newEvents })

/-- `EpollCtrlDelRef` -/
def epollCtrlDelRef (proxy : EpollProxy ω) (fd : Int) (events : EpollEvents) (useRef : Bool)
    (ctl : EpollCtl) : Bool × EpollProxy ω :=
  match proxy.fdRefGet fd with
  | none => (false, proxy)
  | some item =>
      let item := item.detachEvents events
      let newEvents := if useRef then
          item.events.andNot ⟨item.rdRef = 0, item.wrRef = 0⟩
        else
          item.events.andNot events
      if item.events = newEvents then
        (true, proxy.setRef fd item)
      else if ctl ≠ .ok ∧ ¬ (newEvents = .zero ∧ ctl = .noEntry) then
        (false, proxy.setRef fd item)
      else
        (true, proxy.setRef fd { item with events := newEvents })

/-- `EpollCtrlDel` -/
def epollCtrlDel (proxy : EpollProxy ω) (fd : Int) (events : EpollEvents) (ctl : EpollCtl) :
    Bool × EpollProxy ω :=
  proxy.epollCtrlDelRef fd events false ctl

/-- `SetNotifyObj` of an entry. -/
def setNotifyObj (proxy : EpollProxy ω) (fd : Int) (epobj : Option ω) : EpollProxy ω :=
  proxy.setRef fd { proxy.eprefs fd with epobj }

/-- `EpollerObj::EpollCtlAdd` of the object `self`. -/
def epollCtlAdd (proxy : EpollProxy ω) (self : ω) (obj : EpollerObj) (ctl : EpollCtl) :
    Int × EpollProxy ω :=
  let oldObj := (proxy.eprefs obj.fd).epobj
  if oldObj ≠ none ∧ oldObj ≠ some self then
    (-1, proxy)
  else
    let (added, proxy) := (proxy.setNotifyObj obj.fd (some self)).epollCtrlAdd obj.fd obj.events ctl
    if added then (0, proxy) else (-2, proxy.setNotifyObj obj.fd oldObj)

/-- `EpollerObj::EpollCtlDel` of the object `self`. -/
def epollCtlDel (proxy : EpollProxy ω) (self : ω) (obj : EpollerObj) (ctl : EpollCtl) :
    Int × EpollProxy ω :=
  let oldObj := (proxy.eprefs obj.fd).epobj
  if oldObj ≠ some self then
    (-1, proxy)
  else
    let (deleted, proxy) :=
      (proxy.setNotifyObj obj.fd none).epollCtrlDelRef obj.fd obj.events false ctl
    if deleted then (0, proxy) else (-2, proxy.setNotifyObj obj.fd oldObj)

/-- `EpollAddObj` -/
def epollAddObj (proxy : EpollProxy ω) (self : ω) (obj : EpollerObj) (ctl : EpollCtl) :
    Bool × EpollProxy ω :=
  match proxy.fdRefGet obj.fd with
  | none => (false, proxy)
  | some _ =>
      let (ret, proxy) := proxy.epollCtlAdd self obj ctl
      (!decide (ret < 0), proxy)

/-- `EpollDelObj` -/
def epollDelObj (proxy : EpollProxy ω) (self : ω) (obj : EpollerObj) (ctl : EpollCtl) :
    Bool × EpollProxy ω :=
  match proxy.fdRefGet obj.fd with
  | none => (false, proxy)
  | some _ =>
      let (ret, proxy) := proxy.epollCtlDel self obj ctl
      (!decide (ret < 0), proxy)

/-! ## When an object is added or deleted -/

/-- `epoll_ctl` need not be called to listen for `events`, or does what it is called for. -/
def AddWorks (proxy : EpollProxy ω) (fd : Int) (events : EpollEvents) (ctl : EpollCtl) : Prop :=
  (proxy.eprefs fd).events.or events = (proxy.eprefs fd).events ∨ ctl = .ok ∨
    (proxy.eprefs fd).events = .zero ∧ ctl = .exists

/-- `epoll_ctl` need not be called to stop listening for `events`, or does what it is called for. -/
def DelWorks (proxy : EpollProxy ω) (fd : Int) (events : EpollEvents) (ctl : EpollCtl) : Prop :=
  (proxy.eprefs fd).events.andNot events = (proxy.eprefs fd).events ∨ ctl = .ok ∨
    (proxy.eprefs fd).events.andNot events = .zero ∧ ctl = .noEntry

/-- Only the entry of a descriptor changes. -/
structure Changes (proxy after : EpollProxy ω) (fd : Int) (epobj : Option ω) : Prop where
  maxfd_eq : after.maxfd = proxy.maxfd
  epobj_eq : (after.eprefs fd).epobj = epobj
  others : ∀ other, other ≠ fd → after.eprefs other = proxy.eprefs other

section Changes

variable {proxy : EpollProxy ω} {fd : Int}

omit [DecidableEq ω] in
theorem fdRefGet_of_lt (fd_nonneg : 0 ≤ fd) (fd_lt : fd < proxy.maxfd) :
    proxy.fdRefGet fd = some (proxy.eprefs fd) := by
  rw [fdRefGet, if_neg (by omega)]

omit [DecidableEq ω] in
@[simp]
theorem setRef_eprefs (proxy : EpollProxy ω) (fd : Int) (item : FdRef ω) :
    (proxy.setRef fd item).eprefs fd = item :=
  Function.update_self ..

omit [DecidableEq ω] in
theorem changes_setRef (item : FdRef ω) : Changes proxy (proxy.setRef fd item) fd item.epobj :=
  ⟨rfl, by rw [setRef_eprefs], fun _ other_ne => Function.update_of_ne other_ne ..⟩

omit [DecidableEq ω] in
@[simp]
theorem setNotifyObj_events (proxy : EpollProxy ω) (fd : Int) (epobj : Option ω) :
    ((proxy.setNotifyObj fd epobj).eprefs fd).events = (proxy.eprefs fd).events := by
  rw [setNotifyObj, setRef_eprefs]

omit [DecidableEq ω] in
theorem epollCtrlDel_changes {events : EpollEvents} {ctl : EpollCtl} {epobj : Option ω}
    (epobj_eq : (proxy.eprefs fd).epobj = epobj) :
    Changes proxy (proxy.epollCtrlDel fd events ctl).2 fd epobj := by
  subst epobj_eq
  by_cases in_range : fd ≥ proxy.maxfd ∨ fd < 0
  · simp only [epollCtrlDel, EpollProxy.epollCtrlDelRef, fdRefGet, if_pos in_range]
    exact ⟨rfl, rfl, fun _ _ => rfl⟩
  · simp only [epollCtrlDel, EpollProxy.epollCtrlDelRef, fdRefGet, if_neg in_range,
      Bool.false_eq_true, if_false]
    split_ifs
    · exact changes_setRef _
    · exact changes_setRef _
    · exact changes_setRef _

end Changes

end EpollProxy
end Spp
