import Spp.Comm.TimerList

/-!
# Timers that start again, `TLoopTimer`

The timers of `nest/comm/nest_timer.cpp`.  `TNestTimerMng` makes timers, gives them numbers and
finds them by these numbers.  A timer that is notified attaches itself to the end of its list again
before its callback is called, while `CheckExpired` still takes timers from the front of this list.

The callbacks do not touch the timers, and the timers that are notified are logged.  A timer that
has been deleted, and a missing list, must not be used (`none`).  A number beyond an `int32_t` is a
failure as well, and so is a loop that needs more rounds than it gets.
-/

namespace Spp

/-- `TLoopTimer`, but for the callback. -/
structure TLoopTimer (κ : Type) where
  timerList : Option κ
  timeWait : Nat
  runFlag : Bool

/-- `TNestTimerMng` -/
structure TNestTimerMng (κ ω : Type) where
  unit : CTimerUnit κ ω
  /-- The timers that have been made and not been deleted. -/
  timer : ω → Option (TLoopTimer κ)
  timerMap : Int → Option ω
  currTid : Int

namespace TNestTimerMng

variable {κ ω : Type} [DecidableEq κ] [DecidableEq ω]

/-- `TNestTimerMng::TNestTimerMng`; what stands in the memory of the timers to come is arbitrary. -/
def init (timeout : κ → Int) (objexp : ω → Int) : TNestTimerMng κ ω where
  unit := .init timeout objexp
  timer := fun _ => none
  timerMap := fun _ => none
  currTid := 0

/-- A timer changes. -/
def setTimerObject (mng : TNestTimerMng κ ω) (object : ω) (timer : Option (TLoopTimer κ)) :
    TNestTimerMng κ ω :=
  { mng with timer := Function.update mng.timer object timer }

/-- `AttachTimer` -/
def attachTimer (mng : TNestTimerMng κ ω) (clock : Int) (object : ω) (list : κ) :
    TNestTimerMng κ ω :=
  { mng with unit := mng.unit.attachTimer clock object list }

/-- `DisableTimer` -/
def disableTimer (mng : TNestTimerMng κ ω) (object : ω) : TNestTimerMng κ ω :=
  { mng with unit := mng.unit.disableTimer object }

/-- `TLoopTimer::TLoopTimer`, with the `objexp` that stands in the memory. -/
def newTimer (mng : TNestTimerMng κ ω) (object : ω) (objexp : Int) : TNestTimerMng κ ω :=
  { mng with
    unit := { mng.unit with
      links := mng.unit.links.init (.inr object)
      objexp := Function.update mng.unit.objexp object objexp } }.setTimerObject object
    (some ⟨none, 0, false⟩)

/-- `TLoopTimer::SetTimer`, with the list that `new` gives. -/
def setTimer (mng : TNestTimerMng κ ω) (clock : Int) (object : ω) (timeWait : Nat) (fresh : κ) :
    TNestTimerMng κ ω :=
  let found := mng.unit.getTimerList (i32 timeWait) fresh
  ({ mng with unit := found.2 }.attachTimer clock object found.1).setTimerObject object
    (some ⟨some found.1, timeWait, true⟩)

/-- `TLoopTimer::~TLoopTimer` -/
def deleteObject (mng : TNestTimerMng κ ω) (object : ω) : Option (TNestTimerMng κ ω) := do
  let timer ← mng.timer object
  let mng := if timer.runFlag then mng.disableTimer object else mng
  return mng.setTimerObject object none

/-- `TLoopTimer::StartTimer` -/
def startObject (mng : TNestTimerMng κ ω) (clock : Int) (object : ω) :
    Option (Int × TNestTimerMng κ ω) := do
  let timer ← mng.timer object
  if timer.runFlag then
    return (0, mng)
  else
    match timer.timerList with
    | none => return (-1, mng)
    | some list =>
        return (0, (mng.attachTimer clock object list).setTimerObject object
          (some { timer with runFlag := true }))

/-- `TLoopTimer::StopTimer` -/
def stopObject (mng : TNestTimerMng κ ω) (object : ω) : Option (TNestTimerMng κ ω) := do
  let timer ← mng.timer object
  if timer.runFlag then
    return (mng.disableTimer object).setTimerObject object (some { timer with runFlag := false })
  else
    return mng

/-- `timer_notify` -/
def timerNotify (mng : TNestTimerMng κ ω) (clock : Int) (object : ω) :
    Option (TNestTimerMng κ ω) := do
  let timer ← mng.timer object
  if timer.runFlag then
    let list ← timer.timerList
    return mng.attachTimer clock object list
  else
    return mng

/-- `FindTimer` -/
def findTimer (mng : TNestTimerMng κ ω) (tid : Int) : Option ω := mng.timerMap tid

/-- The loop of `CreateTimer`: the next number that is not in use, if there is one. -/
def tidLoop (mng : TNestTimerMng κ ω) : (rounds : Nat) → (currTid : Int) → Option (Option Int)
  | 0, _ => none
  | rounds + 1, currTid => do
      let tid ← int32 (currTid + 1)
      if tid > 0 then
        if mng.findTimer tid = none then return some tid else mng.tidLoop rounds tid
      else
        return none

/-- `CreateTimer`, with the memory that `new` gives for the timer, what stands in it, and the memory
for a list. -/
def createTimer (mng : TNestTimerMng κ ω) (clock : Int) (timeWait : Nat) (object : ω) (objexp : Int)
    (fresh : κ) : Option (Int × TNestTimerMng κ ω) := do
  let mng := (mng.newTimer object objexp).setTimer clock object timeWait fresh
  let found ← mng.tidLoop 2147483648 mng.currTid
  match found with
  | some tid =>
      return (0, { mng with
        timerMap := Function.update mng.timerMap tid (some object), currTid := tid })
  | none =>
      let mng ← { mng with currTid := 0 }.deleteObject object
      return (-3, mng)

/-- `DeleteTimer` -/
def deleteTimer (mng : TNestTimerMng κ ω) (tid : Int) : Option (TNestTimerMng κ ω) :=
  match mng.findTimer tid with
  | none => some mng
  | some object =>
      { mng with timerMap := Function.update mng.timerMap tid none }.deleteObject object

/-- `StartTimer` -/
def startTimer (mng : TNestTimerMng κ ω) (clock : Int) (tid : Int) :
    Option (Int × TNestTimerMng κ ω) :=
  match mng.findTimer tid with
  | none => some (-100, mng)
  | some object => mng.startObject clock object

/-- `StopTimer` -/
def stopTimer (mng : TNestTimerMng κ ω) (tid : Int) : Option (TNestTimerMng κ ω) :=
  match mng.findTimer tid with
  | none => some mng
  | some object => mng.stopObject object

/-- The loops of `CTimerList::CheckExpired` and `CheckPending` with timers that start again. -/
def notifyLoop (clock : Int) (list : Option κ) (stays : Int → Bool) :
    (rounds : Nat) → TNestTimerMng κ ω → Option (List ω × TNestTimerMng κ ω)
  | 0, _ => none
  | rounds + 1, mng =>
      if mng.unit.listEmpty list then
        some ([], mng)
      else do
        let object ← mng.unit.nextOwner list
        if stays (mng.unit.objexp object) then
          return ([], mng)
        else
          let mng ← { mng with unit := mng.unit.listDel object }.timerNotify clock object
          let rest ← notifyLoop clock list stays rounds mng
          return (object :: rest.1, rest.2)

/-- The loop of `CheckExpired` over the lists. -/
def checkLists (rounds : Nat) (clock now : Int) :
    (lists : List κ) → TNestTimerMng κ ω → Option (List ω × TNestTimerMng κ ω)
  | [], mng => some ([], mng)
  | list :: lists, mng => do
      let first ← notifyLoop clock (some list)
        (fun objexp => objexp > CTimerUnit.checkTime clock now) rounds mng
      let rest ← checkLists rounds clock now lists first.2
      return (first.1 ++ rest.1, rest.2)

/-- `RunTimer`: the timers that are notified. -/
def runTimer (mng : TNestTimerMng κ ω) (rounds : Nat) (clock now : Int) :
    Option (List ω × TNestTimerMng κ ω) := do
  let pending ← notifyLoop clock none (fun _ => false) rounds mng
  let lists ← checkLists rounds clock (CTimerUnit.checkTime clock now) pending.2.unit.next pending.2
  return (pending.1 ++ lists.1, lists.2)

end TNestTimerMng

end Spp
