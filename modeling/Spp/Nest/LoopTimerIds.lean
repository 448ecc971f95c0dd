import Spp.Nest.LoopTimerRun

/-!
# Numbers of timers

`CreateTimer` looks for a number that no timer has and stores the timer under it, and then it
returns 0 and not the number.  The number itself is positive and names this timer, until the timer
is deleted.
-/

namespace Spp.TNestTimerMng

variable {κ ω : Type} [DecidableEq κ] [DecidableEq ω]

/-- Each id is that of one timer. -/
structure Numbered (mng : TNestTimerMng κ ω) : Prop where
  positive : ∀ {tid object}, mng.timerMap tid = some object → 0 < tid
  alive : ∀ {tid object}, mng.timerMap tid = some object →
    ∃ timer list, mng.timer object = some timer ∧ timer.timerList = some list
  unique : ∀ {tid other object}, mng.timerMap tid = some object →
    mng.timerMap other = some object → tid = other
  currTid_nonneg : 0 ≤ mng.currTid

/-- Only one timer changes. -/
structure Touches (mng after : TNestTimerMng κ ω) (object : ω) : Prop where
  timerMap_eq : after.timerMap = mng.timerMap
  currTid_eq : after.currTid = mng.currTid
  others : ∀ other, other ≠ object → after.timer other = mng.timer other

/-- A number names a timer: the calls with the number start, stop and delete this timer and no
other. -/
structure Names (mng : TNestTimerMng κ ω) (tid : Int) (object : ω) : Prop where
  start : ∀ clock, ∃ after, mng.startTimer clock tid = some (0, after) ∧ Touches mng after object ∧
    ∃ timer, after.timer object = some timer ∧ timer.runFlag = true
  stop : ∃ after, mng.stopTimer tid = some after ∧ Touches mng after object ∧
    ∃ timer, after.timer object = some timer ∧ timer.runFlag = false
  delete : ∃ after, mng.deleteTimer tid = some after ∧
    Touches { mng with timerMap := Function.update mng.timerMap tid none } after object ∧
    after.timer object = none

variable {tid : Int}

section Touches

variable {mng after : TNestTimerMng κ ω} {object : ω} {timer : TLoopTimer κ} {list : κ}

omit [DecidableEq κ] in
theorem touches_setTimerObject (mng changed : TNestTimerMng κ ω)
    (map_eq : changed.timerMap = mng.timerMap) (curr_eq : changed.currTid = mng.currTid)
    (timer_eq : changed.timer = mng.timer) (object : ω) (timer : Option (TLoopTimer κ)) :
    Touches mng (changed.setTimerObject object timer) object where
  timerMap_eq := map_eq
  currTid_eq := curr_eq
  others := fun other ne => (Function.update_of_ne ne _ _).trans (congrFun timer_eq other)

theorem startObject_eq (found : mng.timer object = some timer)
    (is_list : timer.timerList = some list)
    (clock : Int) : ∃ after, mng.startObject clock object = some (0, after) ∧
      Touches mng after object ∧ after.timer object = some { timer with runFlag := true } := by
  cases runs : timer.runFlag with
  | true =>
      refine ⟨mng, ?_, ⟨rfl, rfl, fun _ _ => rfl⟩, ?_⟩
      · rw [startObject, found, Option.bind_eq_bind, Option.bind_some, runs]
        rfl
      · rw [found, ← runs]
  | false =>
      refine ⟨(mng.attachTimer clock object list).setTimerObject object
        (some { timer with runFlag := true }), ?_,
        touches_setTimerObject mng (mng.attachTimer clock object list) rfl rfl rfl ..,
        Function.update_self ..⟩
      rw [startObject, found, Option.bind_eq_bind, Option.bind_some, runs, is_list]
      rfl

theorem stopObject_eq (found : mng.timer object = some timer) :
    ∃ after, mng.stopObject object = some after ∧ Touches mng after object ∧
      after.timer object = some { timer with runFlag := false } := by
  cases runs : timer.runFlag with
  | true =>
      refine ⟨(mng.disableTimer object).setTimerObject object
        (some { timer with runFlag := false }),
        ?_, touches_setTimerObject mng (mng.disableTimer object) rfl rfl rfl ..,
        Function.update_self ..⟩
      rw [stopObject, found, Option.bind_eq_bind, Option.bind_some, runs]
      rfl
  | false =>
      refine ⟨mng, ?_, ⟨rfl, rfl, fun _ _ => rfl⟩, ?_⟩
      · rw [stopObject, found, Option.bind_eq_bind, Option.bind_some, runs]
        rfl
      · rw [found, ← runs]

theorem deleteObject_eq (found : mng.timer object = some timer) :
    ∃ after, mng.deleteObject object = some after ∧ Touches mng after object ∧
      after.timer object = none := by
  refine ⟨_, by rw [deleteObject, found]; rfl, ?_, Function.update_self ..⟩
  split
  · exact touches_setTimerObject mng (mng.disableTimer object) rfl rfl rfl object none
  · exact touches_setTimerObject mng mng rfl rfl rfl object none

omit [DecidableEq κ] [DecidableEq ω] in
theorem Numbered.touches (numbered : Numbered mng) (touches : Touches mng after object)
    (kept : after.timer object = some timer) (is_list : timer.timerList = some list) :
    Numbered after := by
  obtain ⟨map_eq, curr_eq, others⟩ := touches
  obtain ⟨positive, alive, unique, nonneg⟩ := numbered
  constructor <;> simp only [map_eq, curr_eq] <;> grind

omit [DecidableEq κ] [DecidableEq ω] in
theorem Numbered.of_eq (numbered : Numbered mng) (map_eq : after.timerMap = mng.timerMap)
    (timer_eq : after.timer = mng.timer) (curr_eq : after.currTid = mng.currTid) :
    Numbered after := by
  obtain ⟨unit, timer, timerMap, currTid⟩ := mng
  cases map_eq
  cases timer_eq
  cases curr_eq
  exact { numbered with }

theorem Numbered.names (numbered : Numbered mng) (named : mng.timerMap tid = some object) :
    Names mng tid object := by
  obtain ⟨timer, list, found, is_list⟩ := numbered.alive named
  have find_eq : mng.findTimer tid = some object := named
  constructor
  · intro clock
    obtain ⟨after, starts, touches, kept⟩ := startObject_eq found is_list clock
    refine ⟨after, ?_, touches, _, kept, rfl⟩
    rw [startTimer, find_eq]
    exact starts
  · obtain ⟨after, stops, touches, kept⟩ := stopObject_eq found
    refine ⟨after, ?_, touches, _, kept, rfl⟩
    rw [stopTimer, find_eq]
    exact stops
  · have found : { mng with timerMap := Function.update mng.timerMap tid none }.timer object =
      some timer := found
    obtain ⟨after, deletes, touches, gone⟩ := deleteObject_eq found
    refine ⟨after, ?_, touches, gone⟩
    rw [deleteTimer, find_eq]
    exact deletes

end Touches

/-! ## Runs -/

section Runs

variable {mng after : TNestTimerMng κ ω} {object : ω}

omit [DecidableEq κ] [DecidableEq ω] in
theorem tidLoop_eq {rounds : Nat} {currTid : Int} {found : Option Int} (nonneg : 0 ≤ currTid)
    (loops : mng.tidLoop rounds currTid = some found) :
    ∃ tid, found = some tid ∧ 0 < tid ∧ mng.timerMap tid = none := by
  induction rounds generalizing currTid with
  | zero => cases loops
  | succ rounds induction =>
      obtain ⟨tid, is_tid, loops⟩ := Option.bind_eq_some_iff.mp loops
      have tid_eq : tid = currTid + 1 := by
        obtain ⟨-, same⟩ := Option.ite_none_right_eq_some.mp is_tid
        exact (Option.some.inj same).symm
      have positive : 0 < tid := by omega
      rw [if_pos positive] at loops
      split at loops
      · rename_i unused
        exact ⟨tid, (Option.some.inj loops).symm, positive, unused⟩
      · exact induction positive.le loops

omit [DecidableEq κ] [DecidableEq ω] in
theorem Numbered.insert (numbered : Numbered mng) {timer : TLoopTimer κ} {list : κ}
    (positive : 0 < tid) (unused : mng.timer object = none)
    (map_eq : after.timerMap = Function.update mng.timerMap tid (some object))
    (found : after.timer object = some timer) (is_list : timer.timerList = some list)
    (others : ∀ other, other ≠ object → after.timer other = mng.timer other)
    (nonneg : 0 ≤ after.currTid) : Numbered after := by
  -- no number names the object, which is not in use
  obtain ⟨positive', alive, unique, -⟩ := numbered
  refine ⟨?_, ?_, ?_, nonneg⟩ <;> simp only [map_eq, Function.update_apply] <;> grind

omit [DecidableEq κ] [DecidableEq ω] in
theorem Numbered.erase (numbered : Numbered mng) (named : mng.timerMap tid = some object)
    (map_eq : after.timerMap = Function.update mng.timerMap tid none)
    (others : ∀ other, other ≠ object → after.timer other = mng.timer other)
    (curr_eq : after.currTid = mng.currTid) : Numbered after := by
  obtain ⟨positive, alive, unique, nonneg⟩ := numbered
  refine ⟨?_, ?_, ?_, curr_eq ▸ nonneg⟩ <;> simp only [map_eq, Function.update_apply] <;> grind

theorem Numbered.createTimer (numbered : Numbered mng) {clock ret objexp : Int} {timeWait : Nat}
    {fresh : κ} (unused : mng.timer object = none)
    (creates : mng.createTimer clock timeWait object objexp fresh = some (ret, after)) :
    ret = 0 ∧ 0 < after.currTid ∧ mng.timerMap after.currTid = none ∧
      after.timerMap = Function.update mng.timerMap after.currTid (some object) ∧
      Numbered after := by
  obtain ⟨found, loops, creates⟩ := Option.bind_eq_some_iff.mp creates
  obtain ⟨tid, rfl, positive, free⟩ := tidLoop_eq numbered.currTid_nonneg loops
  cases creates
  refine ⟨rfl, positive, free, rfl,
    numbered.insert positive unused rfl (Function.update_self ..) rfl
    (fun other ne => ?_) positive.le⟩
  exact (Function.update_of_ne ne _ _).trans (Function.update_of_ne ne _ _)

theorem Numbered.steps (numbered : Numbered mng) {lists : Option κ → List ω}
    (sound : Sound mng lists)
    {call : Call κ ω} (steps : Steps mng after call) :
    Numbered after ∧ ∀ tid object, mng.timerMap tid = some object → call ≠ .deleteTimer tid →
      after.timerMap tid = some object := by
  obtain ⟨possible, clock, performs⟩ := steps
  cases call with
  | createTimer timeWait object objexp fresh =>
      obtain ⟨found, creates, same⟩ := Option.map_eq_some_iff.mp performs
      cases same
      obtain ⟨-, -, free, map_eq, numbered_after⟩ := numbered.createTimer possible.1 creates
      refine ⟨numbered_after, fun tid other named _ => ?_⟩
      rw [map_eq, Function.update_of_ne, named]
      rintro rfl
      rw [named] at free
      cases free
  | deleteTimer tid =>
      cases found : mng.timerMap tid with
      | none =>
          rw [perform, deleteTimer, findTimer, found] at performs
          cases performs
          exact ⟨numbered, fun _ _ named _ => named⟩
      | some object =>
          obtain ⟨deleted, deletes, touches, -⟩ := (numbered.names found).delete
          cases Option.some.inj (deletes.symm.trans performs)
          refine ⟨numbered.erase found touches.timerMap_eq touches.others touches.currTid_eq,
            fun number other named ne => ?_⟩
          rw [touches.timerMap_eq]
          refine (Function.update_of_ne ?_ _ _).trans named
          rintro rfl
          exact ne rfl
  | startTimer tid =>
      obtain ⟨result, starts, same⟩ := Option.map_eq_some_iff.mp performs
      cases same
      cases found : mng.timerMap tid with
      | none =>
          rw [startTimer, findTimer, found] at starts
          cases starts
          exact ⟨numbered, fun _ _ named _ => named⟩
      | some object =>
          obtain ⟨timer, list, is_timer, is_list⟩ := numbered.alive found
          obtain ⟨started, started_eq, touches, kept⟩ := startObject_eq is_timer is_list clock
          rw [startTimer, findTimer, found] at starts
          cases Option.some.inj (started_eq.symm.trans starts)
          refine ⟨numbered.touches touches kept is_list, fun number other named _ => ?_⟩
          rw [touches.timerMap_eq, named]
  | stopTimer tid =>
      cases found : mng.timerMap tid with
      | none =>
          rw [perform, stopTimer, findTimer, found] at performs
          cases performs
          exact ⟨numbered, fun _ _ named _ => named⟩
      | some object =>
          obtain ⟨timer, list, is_timer, is_list⟩ := numbered.alive found
          obtain ⟨stopped, stopped_eq, touches, kept⟩ := stopObject_eq is_timer
          rw [perform, stopTimer, findTimer, found] at performs
          cases Option.some.inj (stopped_eq.symm.trans performs)
          refine ⟨numbered.touches touches kept is_list, fun number other named _ => ?_⟩
          rw [touches.timerMap_eq, named]
  | runTimer rounds now =>
      obtain ⟨found, runs, same⟩ := Option.map_eq_some_iff.mp performs
      cases same
      cases rounds with
      | zero => cases runs
      | succ rounds =>
          rw [runTimer_eq sound] at runs
          obtain ⟨-, -, keeps⟩ := checkLists_keeps sound runs
          refine ⟨numbered.of_eq keeps.timerMap_eq keeps.timer_eq keeps.currTid_eq,
            fun tid other named _ => ?_⟩
          rw [keeps.timerMap_eq, named]

omit [DecidableEq κ] [DecidableEq ω] in
theorem numbered_init (timeout : κ → Int) (objexp : ω → Int) : Numbered (init timeout objexp) := by
  constructor <;> simp [init]

theorem Reaches.numbered (reaches : Reaches mng) : Numbered mng := by
  obtain ⟨timeout, objexp, run⟩ := reaches
  induction run with
  | refl => exact numbered_init timeout objexp
  | tail before step induction =>
      obtain ⟨call, steps⟩ := step
      obtain ⟨lists, sound⟩ := Reaches.sound ⟨timeout, objexp, before⟩
      exact (induction.steps sound steps).1

/-- Steps that do not delete the timer of a number. -/
def Spares (tid : Int) (before after : TNestTimerMng κ ω) : Prop :=
  ∃ call, Steps before after call ∧ call ≠ .deleteTimer tid

theorem Reaches.spares (reaches : Reaches mng) (named : mng.timerMap tid = some object)
    (run : Relation.ReflTransGen (Spares tid) mng after) :
    Reaches after ∧ after.timerMap tid = some object := by
  induction run with
  | refl => exact ⟨reaches, named⟩
  | tail _ step induction =>
      obtain ⟨reaches, named⟩ := induction
      obtain ⟨call, steps, ne⟩ := step
      obtain ⟨lists, sound⟩ := reaches.sound
      obtain ⟨timeout, objexp, run⟩ := reaches
      exact ⟨⟨timeout, objexp, run.tail ⟨call, steps⟩⟩,
        ((Reaches.numbered ⟨timeout, objexp, run⟩).steps sound steps).2 tid object named ne⟩

/-- `CreateTimer` returns 0 and not the number of the timer.  The number is positive, no other timer
has it, and it names the timer until the timer is deleted. -/
theorem reaches_createTimer_names (reaches : Reaches mng) {clock ret objexp : Int} {timeWait : Nat}
    {fresh : κ} (possible : (Call.createTimer timeWait object objexp fresh).Possible mng)
    (creates : mng.createTimer clock timeWait object objexp fresh = some (ret, after)) :
    ret = 0 ∧ 0 < after.currTid ∧ mng.timerMap after.currTid = none ∧
      ∀ later, Relation.ReflTransGen (Spares after.currTid) after later →
        Names later after.currTid object := by
  obtain ⟨zero, positive, free, map_eq, -⟩ := reaches.numbered.createTimer possible.1 creates
  have named : after.timerMap after.currTid = some object := by
    rw [map_eq, Function.update_self]
  obtain ⟨timeout, objexp, run⟩ := reaches
  have created : Reaches after := by
    refine ⟨timeout, objexp, run.tail ⟨_, possible, clock, ?_⟩⟩
    rw [perform, creates]
    rfl
  refine ⟨zero, positive, free, fun later spared => ?_⟩
  obtain ⟨reaches, named⟩ := created.spares named spared
  exact reaches.numbered.names named

end Runs

theorem createTimer_fresh_isSome : (fresh.createTimer 100 10 () 0 ()).isSome := by decide

/-- The first timer has the number 1. -/
theorem reaches_createTimer_names_first :
    ∃ ret after, fresh.createTimer 100 10 () 0 () = some (ret, after) ∧ after.currTid = 1 ∧
      ret = 0 ∧ 0 < after.currTid ∧ fresh.timerMap after.currTid = none ∧
      ∀ later, Relation.ReflTransGen (Spares after.currTid) after later →
        Names later after.currTid () := by
  refine ⟨_, _, (Option.some_get createTimer_fresh_isSome).symm, by decide, ?_⟩
  exact reaches_createTimer_names reaches_fresh ⟨rfl, List.not_mem_nil⟩
    (Option.some_get createTimer_fresh_isSome).symm

/-- The number that `CreateTimer` returns for the first timer is 0, and names no timer: `StartTimer`
fails, and `StopTimer` and `DeleteTimer` leave the timer running. -/
theorem createTimer_returns_zero :
    ∃ mng, Reaches fresh ∧ fresh.createTimer 100 10 () 0 () = some (0, mng) ∧
      mng.timerMap 1 = some () ∧ mng.startTimer 100 0 = some (-100, mng) ∧
      mng.stopTimer 0 = some mng ∧ mng.deleteTimer 0 = some mng ∧ mng.Runs () := by
  have zero : ((fresh.createTimer 100 10 () 0 ()).get createTimer_fresh_isSome).1 = 0 := by
    decide
  refine ⟨((fresh.createTimer 100 10 () 0 ()).get createTimer_fresh_isSome).2, reaches_fresh, ?_,
    by decide, rfl, rfl, rfl, (), _, rfl, rfl, rfl⟩
  rw [← zero]
  exact (Option.some_get createTimer_fresh_isSome).symm

end Spp.TNestTimerMng
