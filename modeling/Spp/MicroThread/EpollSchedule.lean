import Mathlib.Data.List.Nodup
import Spp.MicroThread.EpollProxy

/-!
# Waiting for a list of descriptors

`EpollAdd`, `EpollDel` and `MtFrame::EpollSchedule`: a thread registers the objects of a list one by
one, sleeps, and removes them.  Each object comes with what `epoll_ctl` returns when it is added and
when it is removed; a hang-up while the thread sleeps comes with what `epoll_ctl` returns then.
-/

namespace Spp

/-- An object of the list, with the results of the `epoll_ctl` calls made for it. -/
structure Listed (ω : Type) where
  self : ω
  obj : EpollerObj
  addCtl : EpollCtl
  delCtl : EpollCtl

namespace EpollProxy

variable {ω : Type} [DecidableEq ω]

/-! ## The source -/

/-- The first loop of `EpollAdd`, with the objects added before it ended. -/
def epollAddLoop (proxy : EpollProxy ω) :
    List (Listed ω) → Bool × EpollProxy ω × List (Listed ω)
  | [] => (true, proxy, [])
  | epobj :: list =>
      let (added, proxy) := proxy.epollAddObj epobj.self epobj.obj epobj.addCtl
      if added then
        let (ret, proxy, objects) := proxy.epollAddLoop list
        (ret, proxy, epobj :: objects)
      else
        (false, proxy, [])

/-- `EpollDel` -/
def epollDel (proxy : EpollProxy ω) : List (Listed ω) → Bool × EpollProxy ω
  | [] => (true, proxy)
  | epobj :: list =>
      let (deleted, proxy) := proxy.epollDelObj epobj.self epobj.obj epobj.delCtl
      let (ret, proxy) := proxy.epollDel list
      (deleted && ret, proxy)

/-- `EpollAdd`: the second loop removes the objects added before the one that failed. -/
def epollAdd (proxy : EpollProxy ω) (list : List (Listed ω)) : Bool × EpollProxy ω :=
  let (ret, proxy, objects) := proxy.epollAddLoop list
  if ret then (true, proxy) else (false, (proxy.epollDel objects).2)

/-- An event of `epoll_wait`. -/
structure RcvEvent where
  place : Nat
  /-- For `EPOLLERR` and `EPOLLHUP`, what `epoll_ctl` returns in `HangupNotify`. -/
  hangup : Option EpollCtl

/-- What an event does to the table: `HangupNotify` stops listening, the others only wake the
thread. -/
def epollRcvEvent (list : List (Listed ω)) (proxy : EpollProxy ω) (event : RcvEvent) :
    EpollProxy ω :=
  match list[event.place]?, event.hangup with
  | some epobj, some ctl => (proxy.epollCtrlDel epobj.obj.fd epobj.obj.events ctl).2
  | _, _ => proxy

/-- `EpollSchedule` of a running thread; `events` arrive while it sleeps. -/
def epollSchedule (proxy : EpollProxy ω) (list : List (Listed ω)) (events : List RcvEvent) :
    Bool × EpollProxy ω :=
  let (added, proxy) := proxy.epollAdd list
  if added then
    let proxy := events.foldl (epollRcvEvent list) proxy
    let proxy := (proxy.epollDel list).2
    (events.any fun event => event.place < list.length, proxy)
  else
    (false, proxy)

/-! ## One object -/

/-- The entry after `EpollAddObj`. -/
def registered (epobj : Listed ω) (item : FdRef ω) : FdRef ω :=
  { item.attachEvents epobj.obj.events with
    events := item.events.or epobj.obj.events
    epobj := some epobj.self }

/-- The entry after `EpollDelObj`. -/
def released (epobj : Listed ω) (item : FdRef ω) : FdRef ω :=
  { item.detachEvents epobj.obj.events with
    events := item.events.andNot epobj.obj.events
    epobj := none }

/-- The object can be added: its descriptor is in range, nobody else is to be notified, and
`epoll_ctl` works. -/
def Addable (proxy : EpollProxy ω) (epobj : Listed ω) : Prop :=
  (0 ≤ epobj.obj.fd ∧ epobj.obj.fd < proxy.maxfd) ∧
    ((proxy.eprefs epobj.obj.fd).epobj = none ∨
      (proxy.eprefs epobj.obj.fd).epobj = some epobj.self) ∧
    proxy.AddWorks epobj.obj.fd epobj.obj.events epobj.addCtl

instance (proxy : EpollProxy ω) (epobj : Listed ω) : Decidable (proxy.Addable epobj) := by
  unfold Addable AddWorks
  infer_instance

variable {fd : Int} {events before : EpollEvents} {ctl : EpollCtl} {target : Option ω}
  {epobj : Listed ω} {proxy : EpollProxy ω} {freed : Prop} {place : Nat}

section Object

omit [DecidableEq ω] in
theorem setRef_setRef (proxy : EpollProxy ω) (fd : Int) (first second : FdRef ω) :
    (proxy.setRef fd first).setRef fd second = proxy.setRef fd second := by
  simp only [setRef, Function.update_idem]

omit [DecidableEq ω] in
theorem setRef_self (proxy : EpollProxy ω) (fd : Int) :
    proxy.setRef fd (proxy.eprefs fd) = proxy := by
  simp only [setRef, Function.update_eq_self]

omit [DecidableEq ω] in
theorem detach_attach (item : FdRef ω) (events : EpollEvents) :
    (item.attachEvents events).detachEvents events = item := by
  cases item
  simp only [FdRef.attachEvents, FdRef.detachEvents, FdRef.mk.injEq, and_true]
  constructor
  · split <;> rfl
  · split <;> rfl

omit [DecidableEq ω] in
/-- `EpollCtrlAdd` of a descriptor in range listens for more, or changes nothing. -/
theorem epollCtrlAdd_eq (proxy : EpollProxy ω) (fd_nonneg : 0 ≤ fd) (fd_lt : fd < proxy.maxfd) :
    (proxy.AddWorks fd events ctl → proxy.epollCtrlAdd fd events ctl =
      (true, proxy.setRef fd { (proxy.eprefs fd).attachEvents events with
        events := (proxy.eprefs fd).events.or events })) ∧
    (¬ proxy.AddWorks fd events ctl → proxy.epollCtrlAdd fd events ctl = (false, proxy)) := by
  have attached : ((proxy.eprefs fd).attachEvents events).events = (proxy.eprefs fd).events := rfl
  simp only [epollCtrlAdd, fdRefGet_of_lt fd_nonneg fd_lt, AddWorks, attached]
  by_cases same : (proxy.eprefs fd).events = (proxy.eprefs fd).events.or events
  · rw [if_pos same, ← same]
    exact ⟨fun _ => rfl, fun fails => absurd (.inl rfl) fails⟩
  · rw [if_neg same]
    by_cases fails : ctl ≠ .ok ∧ ¬ ((proxy.eprefs fd).events = .zero ∧ ctl = .exists)
    · rw [if_pos fails, detach_attach, setRef_self]
      refine ⟨fun works => ?_, fun _ => rfl⟩
      exact absurd (works.resolve_left (Ne.symm same)) (not_or.mpr fails)
    · rw [if_neg fails]
      refine ⟨fun _ => rfl, fun broken => ?_⟩
      exact absurd (not_or.mp broken).2 (fun neither => fails (not_or.mp neither))

omit [DecidableEq ω] in
/-- `EpollCtrlDel` of a descriptor in range listens for less, or fails and only counts down. -/
theorem epollCtrlDelRef_eq (proxy : EpollProxy ω) (fd_nonneg : 0 ≤ fd) (fd_lt : fd < proxy.maxfd) :
    (proxy.DelWorks fd events ctl → proxy.epollCtrlDelRef fd events false ctl =
      (true, proxy.setRef fd { (proxy.eprefs fd).detachEvents events with
        events := (proxy.eprefs fd).events.andNot events })) ∧
    (¬ proxy.DelWorks fd events ctl → proxy.epollCtrlDelRef fd events false ctl =
      (false, proxy.setRef fd ((proxy.eprefs fd).detachEvents events))) := by
  have detached : ((proxy.eprefs fd).detachEvents events).events = (proxy.eprefs fd).events := rfl
  simp only [epollCtrlDelRef, fdRefGet_of_lt fd_nonneg fd_lt, DelWorks, detached,
    Bool.false_eq_true, if_false]
  by_cases same : (proxy.eprefs fd).events = (proxy.eprefs fd).events.andNot events
  · rw [if_pos same, ← same]
    exact ⟨fun _ => rfl, fun fails => absurd (.inl rfl) fails⟩
  · rw [if_neg same]
    by_cases fails : ctl ≠ .ok ∧
        ¬ ((proxy.eprefs fd).events.andNot events = .zero ∧ ctl = .noEntry)
    · rw [if_pos fails]
      refine ⟨fun works => ?_, fun _ => rfl⟩
      exact absurd (works.resolve_left (Ne.symm same)) (not_or.mpr fails)
    · rw [if_neg fails]
      refine ⟨fun _ => rfl, fun broken => ?_⟩
      exact absurd (not_or.mp broken).2 (fun neither => fails (not_or.mp neither))

omit [DecidableEq ω] in
theorem addWorks_setNotifyObj :
    (proxy.setNotifyObj fd target).AddWorks fd events ctl ↔ proxy.AddWorks fd events ctl := by
  simp only [AddWorks, setNotifyObj_events]

omit [DecidableEq ω] in
theorem delWorks_setNotifyObj :
    (proxy.setNotifyObj fd target).DelWorks fd events ctl ↔ proxy.DelWorks fd events ctl := by
  simp only [DelWorks, setNotifyObj_events]

theorem Addable.epollAddObj (addable : proxy.Addable epobj) :
    proxy.epollAddObj epobj.self epobj.obj epobj.addCtl =
      (true, proxy.setRef epobj.obj.fd
        (registered epobj (proxy.eprefs epobj.obj.fd))) := by
  obtain ⟨⟨fd_nonneg, fd_lt⟩, free, works⟩ := addable
  have no_conflict : ¬ ((proxy.eprefs epobj.obj.fd).epobj ≠ none ∧
      (proxy.eprefs epobj.obj.fd).epobj ≠ some epobj.self) := by
    rintro ⟨present, conflict⟩
    exact free.elim present conflict
  have added := (epollCtrlAdd_eq (proxy.setNotifyObj epobj.obj.fd (some epobj.self))
    fd_nonneg fd_lt).1 (addWorks_setNotifyObj.mpr works)
  simp only [EpollProxy.epollAddObj, fdRefGet_of_lt fd_nonneg fd_lt, epollCtlAdd,
    if_neg no_conflict, added, if_true]
  rw [setNotifyObj, setRef_setRef, setRef_eprefs]
  rfl

theorem epollAddObj_of_not (fails : ¬ proxy.Addable epobj) :
    proxy.epollAddObj epobj.self epobj.obj epobj.addCtl = (false, proxy) := by
  by_cases in_range : 0 ≤ epobj.obj.fd ∧ epobj.obj.fd < proxy.maxfd
  · obtain ⟨fd_nonneg, fd_lt⟩ := in_range
    by_cases conflict : (proxy.eprefs epobj.obj.fd).epobj ≠ none ∧
        (proxy.eprefs epobj.obj.fd).epobj ≠ some epobj.self
    · simp only [EpollProxy.epollAddObj, fdRefGet_of_lt fd_nonneg fd_lt, epollCtlAdd,
        if_pos conflict]
      rfl
    · have free : (proxy.eprefs epobj.obj.fd).epobj = none ∨
          (proxy.eprefs epobj.obj.fd).epobj = some epobj.self := by tauto
      have broken : ¬ proxy.AddWorks epobj.obj.fd epobj.obj.events epobj.addCtl :=
        fun works => fails ⟨⟨fd_nonneg, fd_lt⟩, free, works⟩
      have refused := (epollCtrlAdd_eq (proxy.setNotifyObj epobj.obj.fd (some epobj.self))
        fd_nonneg fd_lt).2 fun works => broken (addWorks_setNotifyObj.mp works)
      simp only [EpollProxy.epollAddObj, fdRefGet_of_lt fd_nonneg fd_lt, epollCtlAdd,
        if_neg conflict, refused, Bool.false_eq_true, if_false]
      rw [setNotifyObj, setNotifyObj, setRef_setRef, setRef_eprefs]
      exact congrArg (Prod.mk false) (setRef_self proxy epobj.obj.fd)
  · have no_entry : proxy.fdRefGet epobj.obj.fd = none := if_pos (by omega)
    simp only [EpollProxy.epollAddObj, no_entry]

theorem epollDelObj_of_works (in_range : 0 ≤ epobj.obj.fd ∧ epobj.obj.fd < proxy.maxfd)
    (present : (proxy.eprefs epobj.obj.fd).epobj = some epobj.self)
    (works : proxy.DelWorks epobj.obj.fd epobj.obj.events epobj.delCtl) :
    proxy.epollDelObj epobj.self epobj.obj epobj.delCtl =
      (true, proxy.setRef epobj.obj.fd (released epobj (proxy.eprefs epobj.obj.fd))) := by
  obtain ⟨fd_nonneg, fd_lt⟩ := in_range
  have deleted := (epollCtrlDelRef_eq (proxy.setNotifyObj epobj.obj.fd none) fd_nonneg
    fd_lt).1 (delWorks_setNotifyObj.mpr works)
  simp only [EpollProxy.epollDelObj, fdRefGet_of_lt fd_nonneg fd_lt, epollCtlDel, present, ne_eq,
    not_true_eq_false, if_false, deleted, if_true]
  rw [setNotifyObj, setRef_setRef, setRef_eprefs]
  rfl

theorem epollDelObj_of_fails (in_range : 0 ≤ epobj.obj.fd ∧ epobj.obj.fd < proxy.maxfd)
    (present : (proxy.eprefs epobj.obj.fd).epobj = some epobj.self)
    (fails : ¬ proxy.DelWorks epobj.obj.fd epobj.obj.events epobj.delCtl) :
    proxy.epollDelObj epobj.self epobj.obj epobj.delCtl =
      (false, proxy.setRef epobj.obj.fd
        ((proxy.eprefs epobj.obj.fd).detachEvents epobj.obj.events)) := by
  obtain ⟨fd_nonneg, fd_lt⟩ := in_range
  have kept := (epollCtrlDelRef_eq (proxy.setNotifyObj epobj.obj.fd none) fd_nonneg
    fd_lt).2 fun works => fails (delWorks_setNotifyObj.mp works)
  simp only [EpollProxy.epollDelObj, fdRefGet_of_lt fd_nonneg fd_lt, epollCtlDel, present, ne_eq,
    not_true_eq_false, if_false, kept, Bool.false_eq_true]
  rw [setNotifyObj, setNotifyObj, setRef_setRef, setRef_setRef, setRef_eprefs, setRef_eprefs,
    ← present]
  rfl

end Object

/-! ## Lists of objects -/

/-- The entries of the objects, changed one after the other. -/
def updateAll (change : Listed ω → FdRef ω → FdRef ω) :
    EpollProxy ω → List (Listed ω) → EpollProxy ω
  | proxy, [] => proxy
  | proxy, epobj :: list =>
      updateAll change
        (proxy.setRef epobj.obj.fd (change epobj (proxy.eprefs epobj.obj.fd))) list

/-- The descriptors of a list. -/
def fds (list : List (Listed ω)) : List Int := list.map (·.obj.fd)

section UpdateAll

variable (change : Listed ω → FdRef ω → FdRef ω)

omit [DecidableEq ω]

theorem updateAll_maxfd (proxy : EpollProxy ω) (list : List (Listed ω)) :
    (updateAll change proxy list).maxfd = proxy.maxfd := by
  induction list generalizing proxy with
  | nil => rfl
  | cons epobj list induction => exact induction _

theorem updateAll_other (proxy : EpollProxy ω) {list : List (Listed ω)} (absent : fd ∉ fds list) :
    (updateAll change proxy list).eprefs fd = proxy.eprefs fd := by
  induction list generalizing proxy with
  | nil => rfl
  | cons epobj list induction =>
      obtain ⟨other, absent⟩ := not_or.mp fun member => absent (List.mem_cons.mpr member)
      rw [updateAll, induction _ absent]
      exact Function.update_of_ne other ..

theorem updateAll_mem (proxy : EpollProxy ω) {list : List (Listed ω)} (distinct : (fds list).Nodup)
    (member : epobj ∈ list) :
    (updateAll change proxy list).eprefs epobj.obj.fd =
      change epobj (proxy.eprefs epobj.obj.fd) := by
  induction list generalizing proxy with
  | nil => cases member
  | cons first list induction =>
      obtain ⟨absent, distinct⟩ := List.nodup_cons.mp distinct
      obtain rfl | member := List.mem_cons.mp member
      · rw [updateAll, updateAll_other change _ absent, setRef_eprefs]
      · have other : epobj.obj.fd ≠ first.obj.fd := by
          intro same
          exact absent (List.mem_map.mpr ⟨epobj, member, same⟩)
        rw [updateAll, induction _ distinct member]
        exact congrArg (change epobj) (Function.update_of_ne other ..)

end UpdateAll

/-- Each object can be added after those before it. -/
def AddableAll : EpollProxy ω → List (Listed ω) → Prop
  | _, [] => True
  | proxy, epobj :: list =>
      proxy.Addable epobj ∧
        (proxy.setRef epobj.obj.fd
          (registered epobj (proxy.eprefs epobj.obj.fd))).AddableAll list

/-- The first loop of `EpollAdd` registers objects up to one that cannot be added. -/
theorem epollAddLoop_eq (proxy : EpollProxy ω) (list : List (Listed ω)) :
    proxy.AddableAll list ∧
        proxy.epollAddLoop list = (true, updateAll registered proxy list, list) ∨
      ∃ front bad back, list = front ++ bad :: back ∧ proxy.AddableAll front ∧
        ¬ (updateAll registered proxy front).Addable bad ∧
        proxy.epollAddLoop list = (false, updateAll registered proxy front, front) := by
  induction list generalizing proxy with
  | nil => exact .inl ⟨trivial, rfl⟩
  | cons epobj list induction =>
      by_cases addable : proxy.Addable epobj
      · have first := addable.epollAddObj
        obtain ⟨rest, looped⟩ | ⟨front, bad, back, rfl, rest, fails, looped⟩ := induction
          (proxy.setRef epobj.obj.fd (registered epobj (proxy.eprefs epobj.obj.fd)))
        · refine .inl ⟨⟨addable, rest⟩, ?_⟩
          simp only [epollAddLoop, first, looped, if_true]
          rfl
        · refine .inr ⟨epobj :: front, bad, back, rfl, ⟨addable, rest⟩, fails, ?_⟩
          simp only [epollAddLoop, first, looped, if_true]
          rfl
      · refine .inr ⟨[], epobj, list, rfl, trivial, addable, ?_⟩
        simp only [epollAddLoop, epollAddObj_of_not addable, Bool.false_eq_true, if_false]
        rfl

omit [DecidableEq ω] in
/-- Objects that can be added in turn have distinct descriptors, on which nobody else is to be
notified. -/
theorem AddableAll.free {list : List (Listed ω)} (addable : proxy.AddableAll list)
    (selves : (list.map (·.self)).Nodup) :
    (fds list).Nodup ∧ ∀ epobj ∈ list, (0 ≤ epobj.obj.fd ∧ epobj.obj.fd < proxy.maxfd) ∧
      ((proxy.eprefs epobj.obj.fd).epobj = none ∨
        (proxy.eprefs epobj.obj.fd).epobj = some epobj.self) := by
  induction list generalizing proxy with
  | nil => exact ⟨List.nodup_nil, fun _ member => nomatch member⟩
  | cons first list induction =>
      obtain ⟨⟨in_range, free, _⟩, rest⟩ := addable
      obtain ⟨new_self, selves⟩ := List.nodup_cons.mp selves
      obtain ⟨distinct, later⟩ := induction rest selves
      have apart : ∀ epobj ∈ list, epobj.obj.fd ≠ first.obj.fd := by
        intro epobj member same
        have taken := (later epobj member).2
        rw [same, setRef_eprefs] at taken
        obtain none_eq | self_eq := taken
        · cases none_eq
        · refine new_self (List.mem_map.mpr ⟨epobj, member, ?_⟩)
          exact (Option.some.inj self_eq).symm
      constructor
      · refine List.nodup_cons.mpr ⟨fun member => ?_, distinct⟩
        obtain ⟨epobj, member, same⟩ := List.mem_map.mp member
        exact apart epobj member same
      · intro epobj member
        obtain rfl | member := List.mem_cons.mp member
        · exact ⟨in_range, free⟩
        · have entry := later epobj member
          have unchanged : (proxy.setRef first.obj.fd (registered first
              (proxy.eprefs first.obj.fd))).eprefs epobj.obj.fd = proxy.eprefs epobj.obj.fd :=
            Function.update_of_ne (apart epobj member) ..
          rw [unchanged] at entry
          exact entry

/-- `EpollDelObj` succeeds. -/
def Releasable (epobj : Listed ω) (item : FdRef ω) : Prop :=
  item.events.andNot epobj.obj.events = item.events ∨ epobj.delCtl = .ok ∨
    item.events.andNot epobj.obj.events = .zero ∧ epobj.delCtl = .noEntry

instance (epobj : Listed ω) (item : FdRef ω) : Decidable (Releasable epobj item) := by
  unfold Releasable
  infer_instance

/-- The entry of a registered object after its removal was tried. -/
def unregistered (epobj : Listed ω) (item : FdRef ω) : FdRef ω :=
  if Releasable epobj item then released epobj item else item.detachEvents epobj.obj.events

theorem epollDel_eq {list : List (Listed ω)} (distinct : (fds list).Nodup)
    (in_range : ∀ epobj ∈ list, 0 ≤ epobj.obj.fd ∧ epobj.obj.fd < proxy.maxfd)
    (present : ∀ epobj ∈ list, (proxy.eprefs epobj.obj.fd).epobj = some epobj.self) :
    (proxy.epollDel list).2 = updateAll unregistered proxy list ∧
      ((proxy.epollDel list).1 = true ↔
        ∀ epobj ∈ list, Releasable epobj (proxy.eprefs epobj.obj.fd)) := by
  induction list generalizing proxy with
  | nil => exact ⟨rfl, iff_of_true rfl fun _ member => nomatch member⟩
  | cons first list induction =>
      obtain ⟨absent, distinct⟩ := List.nodup_cons.mp distinct
      have first_range := in_range first List.mem_cons_self
      have first_present := present first List.mem_cons_self
      have deleted : proxy.epollDelObj first.self first.obj first.delCtl =
          (decide (Releasable first (proxy.eprefs first.obj.fd)), proxy.setRef first.obj.fd
            (unregistered first (proxy.eprefs first.obj.fd))) := by
        by_cases works : Releasable first (proxy.eprefs first.obj.fd)
        · rw [epollDelObj_of_works first_range first_present works, unregistered, if_pos works,
            decide_eq_true works]
        · rw [epollDelObj_of_fails first_range first_present works, unregistered, if_neg works,
            decide_eq_false works]
      have unchanged : ∀ epobj ∈ list, (proxy.setRef first.obj.fd (unregistered first
          (proxy.eprefs first.obj.fd))).eprefs epobj.obj.fd = proxy.eprefs epobj.obj.fd := by
        intro epobj member
        refine Function.update_of_ne (fun same => absent ?_) ..
        exact List.mem_map.mpr ⟨epobj, member, same⟩
      obtain ⟨after_eq, ret_iff⟩ := @induction (proxy.setRef first.obj.fd
        (unregistered first (proxy.eprefs first.obj.fd))) distinct
        (fun epobj member => in_range epobj (List.mem_cons_of_mem _ member))
        (fun epobj member => by
          rw [unchanged epobj member]
          exact present epobj (List.mem_cons_of_mem _ member))
      simp only [epollDel, deleted]
      refine ⟨after_eq, ?_⟩
      rw [Bool.and_eq_true, ret_iff, decide_eq_true_iff, List.forall_mem_cons]
      refine and_congr_right fun _ => ?_
      refine forall₂_congr fun epobj member => ?_
      rw [unchanged epobj member]

/-! ## The roll-back of `EpollAdd` -/

/-- The removals of the roll-back, if there is one, succeed. -/
def RollbackWorks (proxy : EpollProxy ω) (list : List (Listed ω)) : Prop :=
  ((proxy.epollAddLoop list).2.1.epollDel (proxy.epollAddLoop list).2.2).1 = true

instance (proxy : EpollProxy ω) (list : List (Listed ω)) : Decidable (proxy.RollbackWorks list) :=
  inferInstanceAs (Decidable (_ = true))

omit [DecidableEq ω] in
/-- Removing an object after it was registered: the counters are as before, its bits are clear and
nobody is to be notified. -/
theorem released_registered (epobj : Listed ω) (item : FdRef ω) :
    released epobj (registered epobj item) =
      { item with events := item.events.andNot epobj.obj.events, epobj := none } := by
  obtain ⟨wrRef, rdRef, ⟨input, output⟩, target⟩ := item
  obtain ⟨self, ⟨fd, ⟨in_bit, out_bit⟩⟩, addCtl, delCtl⟩ := epobj
  cases input <;> cases output <;> cases in_bit <;> cases out_bit <;> rfl

omit [DecidableEq ω] in
theorem eq_of_entries {first second : EpollProxy ω} (maxfd_eq : first.maxfd = second.maxfd)
    (entry_eq : ∀ fd, first.eprefs fd = second.eprefs fd) : first = second := by
  obtain ⟨maxfd, eprefs⟩ := first
  cases maxfd_eq
  have eprefs_eq : eprefs = second.eprefs := funext entry_eq
  cases eprefs_eq
  rfl

/-- The entry of a registered object, and of any other descriptor, after a removal that works. -/
theorem rolledBack_eprefs {front : List (Listed ω)} (selves : (front.map (·.self)).Nodup)
    (addable : proxy.AddableAll front)
    (works : ((updateAll registered proxy front).epollDel front).1 = true) :
    (∀ epobj ∈ front, ((updateAll registered proxy front).epollDel front).2.eprefs epobj.obj.fd =
      { proxy.eprefs epobj.obj.fd with
        events := (proxy.eprefs epobj.obj.fd).events.andNot epobj.obj.events
        epobj := none }) ∧
    (∀ fd, fd ∉ fds front →
      ((updateAll registered proxy front).epollDel front).2.eprefs fd = proxy.eprefs fd) ∧
    ((updateAll registered proxy front).epollDel front).2.maxfd = proxy.maxfd := by
  obtain ⟨distinct, free⟩ := addable.free selves
  have in_range : ∀ epobj ∈ front, 0 ≤ epobj.obj.fd ∧
      epobj.obj.fd < (updateAll registered proxy front).maxfd := by
    intro epobj member
    rw [updateAll_maxfd]
    exact (free epobj member).1
  have added : ∀ epobj ∈ front, (updateAll registered proxy front).eprefs epobj.obj.fd =
      registered epobj (proxy.eprefs epobj.obj.fd) :=
    fun epobj member => updateAll_mem registered proxy distinct member
  obtain ⟨after_eq, ret_iff⟩ := epollDel_eq distinct in_range fun epobj member => by
    rw [added epobj member]
    rfl
  have releasable := ret_iff.mp works
  rw [after_eq]
  refine ⟨?_, ?_, ?_⟩
  · intro epobj member
    rw [updateAll_mem unregistered _ distinct member, unregistered,
      if_pos (releasable epobj member), added epobj member, released_registered]
  · intro fd absent
    rw [updateAll_other unregistered _ absent, updateAll_other registered _ absent]
  · rw [updateAll_maxfd, updateAll_maxfd]

/-- If `EpollAdd` returns false and its roll-back succeeds, the objects before the one that failed
are rolled back.  Counters are always restored; the entry of a rolled-back object has its bits
cleared and nobody to notify; so the table is restored exactly if nobody listened for these bits and
the objects were not registered before. -/
theorem epollAdd_false_restores {proxy : EpollProxy ω} {list : List (Listed ω)}
    (selves : (list.map (·.self)).Nodup) (failed : (proxy.epollAdd list).1 = false)
    (works : proxy.RollbackWorks list) :
    ∃ front bad back, list = front ++ bad :: back ∧
      (∀ fd, ((proxy.epollAdd list).2.eprefs fd).rdRef = (proxy.eprefs fd).rdRef ∧
        ((proxy.epollAdd list).2.eprefs fd).wrRef = (proxy.eprefs fd).wrRef) ∧
      (∀ epobj ∈ front, (proxy.epollAdd list).2.eprefs epobj.obj.fd =
        { proxy.eprefs epobj.obj.fd with
          events := (proxy.eprefs epobj.obj.fd).events.andNot epobj.obj.events
          epobj := none }) ∧
      (∀ fd, fd ∉ fds front → (proxy.epollAdd list).2.eprefs fd = proxy.eprefs fd) ∧
      ((proxy.epollAdd list).2 = proxy ↔ ∀ epobj ∈ front,
        (proxy.eprefs epobj.obj.fd).events.andNot epobj.obj.events =
            (proxy.eprefs epobj.obj.fd).events ∧
          (proxy.eprefs epobj.obj.fd).epobj = none) := by
  obtain ⟨_, looped⟩ | ⟨front, bad, back, rfl, addable, _, looped⟩ := epollAddLoop_eq proxy list
  · simp [epollAdd, looped] at failed
  have front_selves : (front.map (·.self)).Nodup := by
    rw [List.map_append] at selves
    exact (List.nodup_append.mp selves).1
  have final : (proxy.epollAdd (front ++ bad :: back)).2 =
      ((updateAll registered proxy front).epollDel front).2 := by
    simp only [epollAdd, looped, Bool.false_eq_true, if_false]
  rw [RollbackWorks, looped] at works
  obtain ⟨front_eq, other_eq, maxfd_eq⟩ := rolledBack_eprefs front_selves addable works
  refine ⟨front, bad, back, rfl, ?_⟩
  rw [final]
  refine ⟨?_, front_eq, other_eq, ?_⟩
  · intro fd
    by_cases present : fd ∈ fds front
    · obtain ⟨epobj, member, rfl⟩ := List.mem_map.mp present
      rw [front_eq epobj member]
      exact ⟨rfl, rfl⟩
    · rw [other_eq fd present]
      exact ⟨rfl, rfl⟩
  · constructor
    · intro restored epobj member
      have entry := front_eq epobj member
      rw [restored] at entry
      exact ⟨(congrArg FdRef.events entry).symm, congrArg FdRef.epobj entry⟩
    · intro untouched
      refine eq_of_entries maxfd_eq fun fd => ?_
      by_cases present : fd ∈ fds front
      · obtain ⟨epobj, member, rfl⟩ := List.mem_map.mp present
        obtain ⟨events_eq, epobj_eq⟩ := untouched epobj member
        rw [front_eq epobj member, events_eq, ← epobj_eq]
      · exact other_eq fd present

/-- Two objects that wait for input; the descriptor of the second one is out of range. -/
def secondOutOfRange : List (Listed Nat) :=
  [⟨0, ⟨3, ⟨true, false⟩⟩, .ok, .ok⟩, ⟨1, ⟨-1, ⟨true, false⟩⟩, .ok, .ok⟩]

/-- A table in which descriptor 3 is listened to for `events`, by nobody to be notified. -/
def listening (events : EpollEvents) : EpollProxy Nat :=
  (EpollProxy.new 0).setRef 3 { FdRef.new with events }

theorem epollAdd_false_restores_sample :
    (((listening ⟨false, true⟩).epollAdd secondOutOfRange).2.eprefs 3).rdRef =
      ((listening ⟨false, true⟩).eprefs 3).rdRef := by
  obtain ⟨_, _, _, _, counters_eq, _⟩ := @epollAdd_false_restores Nat _ (listening ⟨false, true⟩)
    secondOutOfRange (by decide) (by decide) (by decide)
  exact (counters_eq 3).1

/-- The roll-back clears a bit that was listened for before. -/
theorem epollAdd_false_restores_wrong :
    ((listening ⟨true, false⟩).epollAdd secondOutOfRange).1 = false ∧
      (listening ⟨true, false⟩).RollbackWorks secondOutOfRange ∧
      ((listening ⟨true, false⟩).eprefs 3).events = ⟨true, false⟩ ∧
      (((listening ⟨true, false⟩).epollAdd secondOutOfRange).2.eprefs 3).events = .zero := by
  refine ⟨?_, ?_, ?_, ?_⟩
  · decide
  · decide
  · decide
  · decide

/-! ## What `EpollSchedule` leaves behind -/

/-- No descriptor has one of the objects to notify. -/
def NothingLeft (proxy : EpollProxy ω) (list : List (Listed ω)) : Prop :=
  ∀ fd, 0 ≤ fd → fd < proxy.maxfd → ∀ epobj ∈ list, (proxy.eprefs fd).epobj ≠ some epobj.self

/-- `epoll_ctl` does its work in a removal of the object from an entry that was listened for
`before`, or finds that the descriptor, which nobody else listens for, is not there. -/
def Frees (epobj : Listed ω) (before : EpollEvents) (ctl : EpollCtl) : Prop :=
  ctl = .ok ∨ before.andNot epobj.obj.events = .zero ∧ ctl = .noEntry

/-- A hang-up of the object at `place` is among the events, and its `epoll_ctl` works. -/
def HungUp (epobj : Listed ω) (before : EpollEvents) (place : Nat) (events : List RcvEvent) :
    Prop :=
  ∃ event ∈ events, event.place = place ∧ ∃ ctl, event.hangup = some ctl ∧ Frees epobj before ctl

/-- The object at `place` waits for nothing, or one of its removals works: the last one, or that of
a hang-up while the thread sleeps, which it does if all objects can be added. -/
def Freed (proxy : EpollProxy ω) (list : List (Listed ω)) (events : List RcvEvent) (place : Nat)
    (epobj : Listed ω) : Prop :=
  epobj.obj.events = .zero ∨
    Frees epobj (proxy.eprefs epobj.obj.fd).events epobj.delCtl ∨
    (∀ other ∈ list, proxy.Addable other) ∧
      HungUp epobj (proxy.eprefs epobj.obj.fd).events place events

section Masks

variable (before events : EpollEvents)

theorem or_andNot : (before.or events).andNot events = before.andNot events := by
  obtain ⟨_ | _, _ | _⟩ := before <;> obtain ⟨_ | _, _ | _⟩ := events <;> rfl

theorem andNot_andNot : (before.andNot events).andNot events = before.andNot events := by
  obtain ⟨_ | _, _ | _⟩ := before <;> obtain ⟨_ | _, _ | _⟩ := events <;> rfl

theorem andNot_eq_or_iff : before.andNot events = before.or events ↔ events = .zero := by
  obtain ⟨_ | _, _ | _⟩ := before <;> obtain ⟨_ | _, _ | _⟩ := events <;> decide

end Masks

/-- The entry of an object that waits, over an entry that was listened for `before`; `freed` tells
whether a hang-up has cleared its bits. -/
structure Waiting (epobj : Listed ω) (before : EpollEvents) (freed : Prop) (item : FdRef ω) :
    Prop where
  epobj_eq : item.epobj = some epobj.self
  events_freed : freed → item.events = before.andNot epobj.obj.events
  events_kept : ¬ freed → item.events = before.or epobj.obj.events

omit [DecidableEq ω] in
theorem waiting_registered (epobj : Listed ω) (item : FdRef ω) :
    Waiting epobj item.events False (registered epobj item) :=
  ⟨rfl, False.elim, fun _ => rfl⟩

section Waiting

variable {item : FdRef ω} (waiting : Waiting epobj before freed item)

include waiting

omit [DecidableEq ω]

theorem Waiting.andNot_eq : item.events.andNot epobj.obj.events =
    before.andNot epobj.obj.events := by
  by_cases cleared : freed
  · rw [waiting.events_freed cleared, andNot_andNot]
  · rw [waiting.events_kept cleared, or_andNot]

theorem Waiting.idle_iff : item.events.andNot epobj.obj.events = item.events ↔
    freed ∨ epobj.obj.events = .zero := by
  rw [waiting.andNot_eq]
  by_cases cleared : freed
  · rw [waiting.events_freed cleared]
    exact iff_of_true rfl (.inl cleared)
  · rw [waiting.events_kept cleared, andNot_eq_or_iff]
    exact ⟨.inr, fun idle => idle.resolve_left cleared⟩

theorem Waiting.releasable_iff : Releasable epobj item ↔
    epobj.obj.events = .zero ∨ freed ∨ Frees epobj before epobj.delCtl := by
  rw [Releasable, waiting.idle_iff, waiting.andNot_eq, Frees]
  tauto

theorem Waiting.hangup (fd_nonneg : 0 ≤ epobj.obj.fd) (fd_lt : epobj.obj.fd < proxy.maxfd)
    (item_eq : proxy.eprefs epobj.obj.fd = item) (ctl : EpollCtl) :
    Waiting epobj before (freed ∨ Frees epobj before ctl)
      ((proxy.epollCtrlDel epobj.obj.fd epobj.obj.events ctl).2.eprefs epobj.obj.fd) := by
  have andNot_eq := waiting.andNot_eq
  have idle_iff := waiting.idle_iff
  subst item_eq
  obtain ⟨on_work, on_failure⟩ :=
    @epollCtrlDelRef_eq ω epobj.obj.fd epobj.obj.events ctl proxy fd_nonneg fd_lt
  by_cases works : proxy.DelWorks epobj.obj.fd epobj.obj.events ctl
  · rw [epollCtrlDel, on_work works, setRef_eprefs]
    refine ⟨waiting.epobj_eq, fun _ => andNot_eq, fun kept => ?_⟩
    obtain ⟨kept, not_frees⟩ := not_or.mp kept
    have unchanged : (proxy.eprefs epobj.obj.fd).events.andNot epobj.obj.events =
        (proxy.eprefs epobj.obj.fd).events := by
      refine works.resolve_right fun called => not_frees ?_
      rw [andNot_eq] at called
      exact called
    exact unchanged.trans (waiting.events_kept kept)
  · rw [epollCtrlDel, on_failure works, setRef_eprefs]
    obtain ⟨_, not_called⟩ := not_or.mp works
    rw [andNot_eq] at not_called
    refine ⟨waiting.epobj_eq, fun cleared => ?_, fun kept => ?_⟩
    · exact waiting.events_freed (cleared.resolve_right not_called)
    · exact waiting.events_kept (not_or.mp kept).1

end Waiting

section Events

variable {list : List (Listed ω)} (distinct : (fds list).Nodup)

omit [DecidableEq ω]

theorem epollRcvEvent_maxfd (proxy : EpollProxy ω) (event : RcvEvent) :
    (epollRcvEvent list proxy event).maxfd = proxy.maxfd := by
  unfold epollRcvEvent
  split
  · exact (epollCtrlDel_changes rfl).maxfd_eq
  · rfl

theorem epollRcvEvents_maxfd (proxy : EpollProxy ω) (events : List RcvEvent) :
    (events.foldl (epollRcvEvent list) proxy).maxfd = proxy.maxfd := by
  induction events generalizing proxy with
  | nil => rfl
  | cons event events induction =>
      rw [List.foldl_cons, induction, epollRcvEvent_maxfd]

theorem epollRcvEvents_other (proxy : EpollProxy ω) (events : List RcvEvent)
    (absent : fd ∉ fds list) :
    (events.foldl (epollRcvEvent list) proxy).eprefs fd = proxy.eprefs fd := by
  induction events generalizing proxy with
  | nil => rfl
  | cons event events induction =>
      rw [List.foldl_cons, induction]
      unfold epollRcvEvent
      split
      · rename_i epobj ctl at_place _
        refine (epollCtrlDel_changes rfl).others fd fun same => absent ?_
        exact List.mem_map.mpr ⟨epobj, List.mem_of_getElem? at_place, same.symm⟩
      · rfl

theorem Waiting.congr {other : Prop} {item : FdRef ω} (waiting : Waiting epobj before freed item)
    (same : freed ↔ other) : Waiting epobj before other item :=
  propext same ▸ waiting

include distinct

theorem fd_ne_of_place_ne {other : Nat} {next : Listed ω} (at_place : list[place]? = some epobj)
    (at_other : list[other]? = some next) (different : other ≠ place) :
    next.obj.fd ≠ epobj.obj.fd := by
  intro same
  have fd_place : (fds list)[place]? = some epobj.obj.fd := by
    rw [fds, List.getElem?_map, at_place]
    rfl
  have fd_other : (fds list)[other]? = some next.obj.fd := by
    rw [fds, List.getElem?_map, at_other]
    rfl
  obtain ⟨other_lt, _⟩ := List.getElem?_eq_some_iff.mp fd_other
  rw [← same, ← fd_other] at fd_place
  exact different ((List.getElem?_inj other_lt distinct).mp fd_place.symm)

theorem Waiting.rcvEvent (at_place : list[place]? = some epobj) (fd_nonneg : 0 ≤ epobj.obj.fd)
    (fd_lt : epobj.obj.fd < proxy.maxfd)
    (waiting : Waiting epobj before freed (proxy.eprefs epobj.obj.fd)) (event : RcvEvent) :
    Waiting epobj before (freed ∨ HungUp epobj before place [event])
      ((epollRcvEvent list proxy event).eprefs epobj.obj.fd) := by
  obtain ⟨other, hangup⟩ := event
  cases hangup with
  | none =>
      have unchanged : epollRcvEvent list proxy ⟨other, none⟩ = proxy := by
        unfold epollRcvEvent
        cases list[other]? <;> rfl
      rw [unchanged]
      exact waiting.congr (by simp [HungUp])
  | some ctl =>
      by_cases same : other = place
      · subst same
        have hung : epollRcvEvent list proxy ⟨other, some ctl⟩ =
            (proxy.epollCtrlDel epobj.obj.fd epobj.obj.events ctl).2 := by
          simp only [epollRcvEvent, at_place]
        rw [hung]
        exact (waiting.hangup fd_nonneg fd_lt rfl ctl).congr (by simp [HungUp])
      · have unchanged : (epollRcvEvent list proxy ⟨other, some ctl⟩).eprefs epobj.obj.fd =
            proxy.eprefs epobj.obj.fd := by
          unfold epollRcvEvent
          cases at_other : list[other]? with
          | none => rfl
          | some next =>
              exact (epollCtrlDel_changes rfl).others _
                (fd_ne_of_place_ne distinct at_place at_other same).symm
        rw [unchanged]
        exact waiting.congr (by simp [HungUp, same])

theorem Waiting.rcvEvents (at_place : list[place]? = some epobj) (fd_nonneg : 0 ≤ epobj.obj.fd)
    (fd_lt : epobj.obj.fd < proxy.maxfd)
    (waiting : Waiting epobj before freed (proxy.eprefs epobj.obj.fd)) (events : List RcvEvent) :
    Waiting epobj before (freed ∨ HungUp epobj before place events)
      ((events.foldl (epollRcvEvent list) proxy).eprefs epobj.obj.fd) := by
  induction events generalizing proxy freed with
  | nil => exact waiting.congr (by simp [HungUp])
  | cons event events induction =>
      have first := waiting.rcvEvent distinct at_place fd_nonneg fd_lt event
      have later := induction (by rw [epollRcvEvent_maxfd]; exact fd_lt) first
      refine later.congr ?_
      simp only [HungUp, List.mem_cons, List.not_mem_nil, or_false, exists_eq_or_imp,
        exists_eq_left]
      exact or_assoc

end Events

section Schedule

variable {list : List (Listed ω)} (distinct : (fds list).Nodup)

include distinct

omit [DecidableEq ω] in
/-- On distinct descriptors, whether an object can be added does not depend on those before it. -/
theorem addableAll_iff : proxy.AddableAll list ↔ ∀ epobj ∈ list, proxy.Addable epobj := by
  induction list generalizing proxy with
  | nil => exact iff_of_true trivial fun _ member => nomatch member
  | cons first list induction =>
      obtain ⟨absent, distinct⟩ := List.nodup_cons.mp distinct
      rw [AddableAll, induction distinct, List.forall_mem_cons]
      refine and_congr_right fun _ => forall₂_congr fun epobj member => ?_
      have unchanged : (proxy.setRef first.obj.fd (registered first
          (proxy.eprefs first.obj.fd))).eprefs epobj.obj.fd = proxy.eprefs epobj.obj.fd := by
        refine Function.update_of_ne (fun same => absent ?_) ..
        exact List.mem_map.mpr ⟨epobj, member, same⟩
      simp only [Addable, AddWorks, unchanged]
      rfl

/-- The first loop of `EpollAdd` on distinct descriptors, in terms of the table before it. -/
theorem epollAddLoop_distinct :
    (∀ epobj ∈ list, proxy.Addable epobj) ∧
        proxy.epollAddLoop list = (true, updateAll registered proxy list, list) ∨
      ∃ front bad back, list = front ++ bad :: back ∧ (fds front).Nodup ∧
        (∀ epobj ∈ front, proxy.Addable epobj) ∧ ¬ proxy.Addable bad ∧
        proxy.epollAddLoop list = (false, updateAll registered proxy front, front) := by
  obtain ⟨addable, looped⟩ | ⟨front, bad, back, rfl, addable, fails, looped⟩ :=
    epollAddLoop_eq proxy list
  · exact .inl ⟨(addableAll_iff distinct).mp addable, looped⟩
  · rw [fds, List.map_append, List.map_cons] at distinct
    obtain ⟨front_distinct, _, apart⟩ := List.nodup_append.mp distinct
    have absent : bad.obj.fd ∉ fds front := fun member =>
      apart _ member _ List.mem_cons_self rfl
    refine .inr ⟨front, bad, back, rfl, front_distinct,
      (addableAll_iff front_distinct).mp addable, ?_, looped⟩
    rw [Addable, updateAll_maxfd, AddWorks, updateAll_other registered proxy absent] at fails
    exact fails

/-- The removal of objects that wait, each over the entry of the table before it was added. -/
theorem nothingLeft_epollDel {between : EpollProxy ω} {whole : List (Listed ω)}
    {freed : Nat → Listed ω → Prop} (part : ∀ epobj ∈ list, epobj ∈ whole)
    (fresh : ∀ fd, 0 ≤ fd → fd < proxy.maxfd → ∀ epobj ∈ whole,
      (proxy.eprefs fd).epobj ≠ some epobj.self)
    (addable : ∀ epobj ∈ list, proxy.Addable epobj) (maxfd_eq : between.maxfd = proxy.maxfd)
    (waiting : ∀ place epobj, list[place]? = some epobj →
      Waiting epobj (proxy.eprefs epobj.obj.fd).events (freed place epobj)
        (between.eprefs epobj.obj.fd))
    (others : ∀ fd, fd ∉ fds list → between.eprefs fd = proxy.eprefs fd) :
    (between.epollDel list).2.NothingLeft whole ↔
      ∀ place epobj, list[place]? = some epobj → epobj.obj.events = .zero ∨
        freed place epobj ∨ Frees epobj (proxy.eprefs epobj.obj.fd).events epobj.delCtl := by
  have in_range : ∀ epobj ∈ list, 0 ≤ epobj.obj.fd ∧ epobj.obj.fd < between.maxfd := by
    intro epobj member
    rw [maxfd_eq]
    exact (addable epobj member).1
  have present : ∀ epobj ∈ list, (between.eprefs epobj.obj.fd).epobj = some epobj.self := by
    intro epobj member
    obtain ⟨place, at_place⟩ := List.mem_iff_getElem?.mp member
    exact (waiting place epobj at_place).epobj_eq
  rw [(epollDel_eq distinct in_range present).1, NothingLeft, updateAll_maxfd, maxfd_eq]
  constructor
  · intro nothing place epobj at_place
    have member := List.mem_of_getElem? at_place
    obtain ⟨⟨fd_nonneg, fd_lt⟩, _⟩ := addable epobj member
    have gone := nothing epobj.obj.fd fd_nonneg fd_lt epobj (part epobj member)
    rw [updateAll_mem unregistered between distinct member] at gone
    refine (waiting place epobj at_place).releasable_iff.mp ?_
    by_contra fails
    rw [unregistered, if_neg fails] at gone
    exact gone (present epobj member)
  · intro freed fd fd_nonneg fd_lt epobj member
    by_cases listed : fd ∈ fds list
    · obtain ⟨owner, owner_member, rfl⟩ := List.mem_map.mp listed
      obtain ⟨place, at_place⟩ := List.mem_iff_getElem?.mp owner_member
      have releasable := (waiting place owner at_place).releasable_iff.mpr
        (freed place owner at_place)
      rw [updateAll_mem unregistered between distinct owner_member, unregistered,
        if_pos releasable]
      exact nofun
    · rw [updateAll_other unregistered between listed, others fd listed]
      exact fresh fd fd_nonneg fd_lt epobj member

variable (fresh : ∀ fd, 0 ≤ fd → fd < proxy.maxfd → ∀ epobj ∈ list,
  (proxy.eprefs fd).epobj ≠ some epobj.self)

include fresh

theorem nothingLeft_of_added (addable : ∀ epobj ∈ list, proxy.Addable epobj)
    (looped : proxy.epollAddLoop list = (true, updateAll registered proxy list, list))
    (events : List RcvEvent) :
    (proxy.epollSchedule list events).2.NothingLeft list ↔
      ∀ place epobj, list[place]? = some epobj → epobj.obj.events = .zero ∨
        HungUp epobj (proxy.eprefs epobj.obj.fd).events place events ∨
        Frees epobj (proxy.eprefs epobj.obj.fd).events epobj.delCtl := by
  simp only [epollSchedule, epollAdd, looped, if_true]
  refine nothingLeft_epollDel distinct (fun _ => id) fresh addable ?_
    (fun place epobj at_place => ?_) fun fd absent => ?_
  · rw [epollRcvEvents_maxfd, updateAll_maxfd]
  · have member := List.mem_of_getElem? at_place
    obtain ⟨⟨fd_nonneg, fd_lt⟩, _⟩ := addable epobj member
    have start := waiting_registered epobj (proxy.eprefs epobj.obj.fd)
    rw [← updateAll_mem registered proxy distinct member] at start
    have after := start.rcvEvents distinct at_place fd_nonneg
      (by rw [updateAll_maxfd]; exact fd_lt) events
    exact after.congr (or_iff_right id)
  · rw [epollRcvEvents_other _ events absent, updateAll_other registered proxy absent]

omit distinct in
/-- Some object cannot be added, and those before it are removed at once. -/
theorem nothingLeft_of_rolledBack {front back : List (Listed ω)} {bad : Listed ω}
    (list_eq : list = front ++ bad :: back) (distinct : (fds front).Nodup)
    (addable : ∀ epobj ∈ front, proxy.Addable epobj)
    (looped : proxy.epollAddLoop list = (false, updateAll registered proxy front, front))
    (events : List RcvEvent) :
    (proxy.epollSchedule list events).2.NothingLeft list ↔
      ∀ (place : Nat) epobj, front[place]? = some epobj → epobj.obj.events = .zero ∨
        Frees epobj (proxy.eprefs epobj.obj.fd).events epobj.delCtl := by
  have part : ∀ epobj ∈ front, epobj ∈ list := fun epobj member =>
    list_eq ▸ List.mem_append_left _ member
  have waiting : ∀ (place : Nat) epobj, front[place]? = some epobj →
      Waiting epobj (proxy.eprefs epobj.obj.fd).events False
        ((updateAll registered proxy front).eprefs epobj.obj.fd) := by
    intro place epobj at_place
    rw [updateAll_mem registered proxy distinct (List.mem_of_getElem? at_place)]
    exact waiting_registered ..
  simp only [epollSchedule, epollAdd, looped, Bool.false_eq_true, if_false]
  rw [nothingLeft_epollDel distinct part fresh addable (updateAll_maxfd ..) waiting
    fun fd absent => updateAll_other registered proxy absent]
  simp only [false_or]

/-- `EpollSchedule` of objects on distinct descriptors, none of which is to be notified yet, leaves
none of them behind exactly if every object that was added is freed. -/
theorem epollSchedule_nothingLeft_iff (events : List RcvEvent) :
    (proxy.epollSchedule list events).2.NothingLeft list ↔
      ∀ place epobj, list[place]? = some epobj →
        (∀ other ∈ list.take (place + 1), proxy.Addable other) →
          proxy.Freed list events place epobj := by
  obtain ⟨addable, looped⟩ | ⟨front, bad, back, list_eq, front_distinct, addable, fails, looped⟩ :=
    @epollAddLoop_distinct ω _ proxy list distinct
  · rw [nothingLeft_of_added distinct fresh addable looped]
    refine forall₃_congr fun place epobj at_place => ?_
    have added : ∀ other ∈ list.take (place + 1), proxy.Addable other :=
      fun other member => addable other (List.mem_of_mem_take member)
    rw [forall_prop_of_true added, Freed, and_iff_right addable]
    tauto
  · have not_all : ¬ ∀ other ∈ list, proxy.Addable other := by
      intro all
      exact fails (all bad (list_eq ▸ List.mem_append_right _ List.mem_cons_self))
    rw [nothingLeft_of_rolledBack fresh list_eq front_distinct addable looped]
    constructor
    · intro freed place epobj at_place added
      have inside : place < front.length := by
        by_contra beyond
        refine fails (added bad ?_)
        rw [list_eq, List.take_append, List.mem_append]
        right
        obtain ⟨extra, extra_eq⟩ := Nat.exists_eq_add_of_le (not_lt.mp beyond)
        rw [extra_eq, show front.length + extra + 1 - front.length = extra + 1 by omega]
        exact List.mem_cons_self
      rw [list_eq, List.getElem?_append_left inside] at at_place
      obtain zero | frees := freed place epobj at_place
      · exact .inl zero
      · exact .inr (.inl frees)
    · intro freed place epobj at_place
      obtain ⟨inside, _⟩ := List.getElem?_eq_some_iff.mp at_place
      have at_list : list[place]? = some epobj := by
        rw [list_eq, List.getElem?_append_left inside]
        exact at_place
      obtain zero | frees | ⟨all, _⟩ := freed place epobj at_list fun other taken => by
        rw [list_eq, List.take_append_of_le_length inside] at taken
        exact addable other (List.mem_of_mem_take taken)
      · exact .inl zero
      · exact .inr frees
      · exact absurd all not_all

end Schedule

/-- One object that waits for input on descriptor 3, with the result of its removal. -/
def oneWaiter (delCtl : EpollCtl) : List (Listed Nat) := [⟨0, ⟨3, ⟨true, false⟩⟩, .ok, delCtl⟩]

theorem fresh_new (list : List (Listed Nat)) (fd : Int) (_ : 0 ≤ fd)
    (_ : fd < (EpollProxy.new 0 : EpollProxy Nat).maxfd) (epobj : Listed Nat) (_ : epobj ∈ list) :
    ((EpollProxy.new 0 : EpollProxy Nat).eprefs fd).epobj ≠ some epobj.self :=
  nofun

/-- A hang-up stops listening, so that the last removal has nothing to do. -/
theorem oneWaiter_nothingLeft :
    ((EpollProxy.new 0).epollSchedule (oneWaiter .failed) [⟨0, some .ok⟩]).2.NothingLeft
      (oneWaiter .failed) := by
  refine (@epollSchedule_nothingLeft_iff Nat _ (EpollProxy.new 0) (oneWaiter .failed)
    (List.nodup_singleton _) (fresh_new _) _).mpr ?_
  intro place epobj at_place _
  have member := List.mem_singleton.mp (List.mem_of_getElem? at_place)
  subst member
  obtain ⟨place_lt, _⟩ := List.getElem?_eq_some_iff.mp at_place
  have first : place = 0 := Nat.lt_one_iff.mp place_lt
  refine .inr (.inr ⟨by decide, ⟨0, some .ok⟩, List.mem_singleton_self _, first.symm, .ok,
    rfl, .inl rfl⟩)

/-- Input arrives and the thread wakes up, but its removal fails: the object stays to be notified,
and the next object on the descriptor is refused. -/
theorem oneWaiter_nothingLeft_wrong :
    ((EpollProxy.new 0).epollSchedule (oneWaiter .failed) [⟨0, none⟩]).1 = true ∧
      (((EpollProxy.new 0).epollSchedule (oneWaiter .failed) [⟨0, none⟩]).2.eprefs 3).epobj =
        some 0 ∧
      (((EpollProxy.new 0).epollSchedule (oneWaiter .failed) [⟨0, none⟩]).2.epollAddObj 1
        ⟨3, ⟨true, false⟩⟩ .ok).1 = false := by
  refine ⟨?_, ?_, ?_⟩
  · decide
  · decide
  · decide

end EpollProxy
end Spp
