import Spp.Comm.TimerListRun

/-!
# A round of the worker, `CSessionMgr::run`

In asynchronous mode `run(true)` of `async/session_mgr.cpp` reads the clock, waits for events with a
timeout that comes from the session timers, reads the clock again, handles the events and checks the
reconnect and the session timers.  The checks get the time from before the wait.  So a timer that
expires during the wait is left to the next round, although the wait ends for it.
-/

namespace Spp

open CTimerUnit

/-- `CSessionMgr` -/
structure CSessionMgr (κ ω : Type) where
  timers : Timed κ ω
  reconnects : Timed κ ω
  epwaittimeout : Int
  maxEpollTimeout : Int

namespace CSessionMgr

variable {κ ω : Type} [DecidableEq κ] [DecidableEq ω]

/-- The clock of both lists. -/
def setClock (mgr : CSessionMgr κ ω) (clock : Int) : CSessionMgr κ ω :=
  { mgr with
    timers := { mgr.timers with clock }
    reconnects := { mgr.reconnects with clock } }

/-- The timeout of the wait; `DEFAULT_EPOLL_WAIT_TIME` is 400. -/
def nextEpwaittimeout (mgr : CSessionMgr κ ω) : Option Int :=
  if mgr.epwaittimeout ≥ 3 then do
    let msec ← mgr.timers.unit.expireMicroSeconds mgr.timers.clock 400
    return if msec + 1 > mgr.maxEpollTimeout then mgr.maxEpollTimeout else msec + 1
  else
    some (mgr.epwaittimeout + 1)

/-- A call that handlers make. -/
def HandlerCall : Timed.Event κ ω → Prop
  | .getTimerList .. | .attachTimer .. | .disableTimer .. => True
  | .checkExpired .. | .tick .. => False

/-- What a handler does. -/
inductive Handles : CSessionMgr κ ω → CSessionMgr κ ω → Prop where
  | timers {mgr : CSessionMgr κ ω} {event : Timed.Event κ ω} {after : Timed κ ω}
      (call : HandlerCall event) (step : mgr.timers.Steps after event) :
      Handles mgr { mgr with timers := after }
  | reconnects {mgr : CSessionMgr κ ω} {event : Timed.Event κ ω} {after : Timed κ ω}
      (call : HandlerCall event) (step : mgr.reconnects.Steps after event) :
      Handles mgr { mgr with reconnects := after }
  | clock {mgr : CSessionMgr κ ω} {clock : Int} (timers_le : mgr.timers.clock ≤ clock)
      (reconnects_le : mgr.reconnects.clock ≤ clock) : Handles mgr (mgr.setClock clock)

/-- The readings of the clock in a round. -/
structure Readings where
  now : Int
  asked : Int
  woken : Int

/-- A round `run(true)` in asynchronous mode up to the checks: `wait` is the timeout of the wait,
and `polled` is the state before the checks. -/
structure Waits (before : CSessionMgr κ ω) (readings : Readings) (wait : Int)
    (polled : CSessionMgr κ ω) : Prop where
  timers_le : before.timers.clock ≤ readings.now
  reconnects_le : before.reconnects.clock ≤ readings.now
  asked_ge : readings.now ≤ readings.asked
  woken_ge : readings.asked ≤ readings.woken
  wait_eq : (before.setClock readings.asked).nextEpwaittimeout = some wait
  handled : Relation.ReflTransGen Handles
    { before.setClock readings.woken with epwaittimeout := wait } polled

/-- The checks at the end of a round: the reconnect and the session timers that are notified. -/
def checkBoth (mgr : CSessionMgr κ ω) (rounds : Nat) (now : Int) :
    Option (List ω × List ω × CSessionMgr κ ω) := do
  let reconnects ← mgr.reconnects.unit.checkExpired rounds mgr.reconnects.clock now
  let timers ← mgr.timers.unit.checkExpired rounds mgr.timers.clock now
  return (reconnects.1, timers.1, { mgr with
    timers := { mgr.timers with unit := timers.2 }
    reconnects := { mgr.reconnects with unit := reconnects.2 } })

/-- Both lists are as runs leave them. -/
structure Reached (mgr : CSessionMgr κ ω) : Prop where
  timers : mgr.timers.Reaches
  reconnects : mgr.reconnects.Reaches

end CSessionMgr

namespace Timed

variable {κ ω : Type} [DecidableEq κ] [DecidableEq ω] {state : Timed κ ω}

theorem Reaches.step (reaches : state.Reaches) {event : Event κ ω} {after : Timed κ ω}
    (step : state.Steps after event) : after.Reaches := by
  obtain ⟨timeout, objexp, clock, run⟩ := reaches
  exact ⟨timeout, objexp, clock, run.tail ⟨event, step⟩⟩

theorem Reaches.setClock (reaches : state.Reaches) {clock : Int} (later : state.clock ≤ clock) :
    Reaches { state with clock } :=
  reaches.step (show state.Steps _ (.tick clock) from ⟨later, rfl⟩)

omit [DecidableEq κ] [DecidableEq ω] in
theorem Expires.unique {object : ω} {exp other : Int} (expires : state.Expires object exp)
    (also : state.Expires object other) : exp = other := by
  obtain ⟨time, timeout, attached, rfl⟩ := expires
  obtain ⟨_, _, same, rfl⟩ := also
  obtain ⟨rfl, rfl⟩ := Prod.mk.inj (Option.some.inj (attached.symm.trans same))
  rfl

theorem Reaches.notifies (reaches : state.Reaches) (now : Int) : ∃ enough fired after,
    (∀ rounds ≥ enough, state.unit.checkExpired rounds state.clock now = some (fired, after)) ∧
    ∀ object exp, state.Expires object exp →
      (object ∈ fired ↔ exp ≤ checkTime state.clock now) := by
  obtain ⟨lists, holds⟩ := reaches.holds
  obtain ⟨enough, fired, after, returns, -, fired_iff, -⟩ := holds.fires now
  refine ⟨enough, fired, after, returns, fun object exp expires => ?_⟩
  rw [fired_iff]
  refine ⟨?_, fun expired => ⟨exp, expires, expired⟩⟩
  rintro ⟨other, also, expired⟩
  rw [expires.unique also]
  exact expired

end Timed

namespace CSessionMgr

variable {κ ω : Type} [DecidableEq κ] [DecidableEq ω] {before polled : CSessionMgr κ ω}
  {readings : Readings} {wait : Int}

theorem Reached.setClock (reached : before.Reached) {clock : Int}
    (timers_le : before.timers.clock ≤ clock) (reconnects_le : before.reconnects.clock ≤ clock) :
    (before.setClock clock).Reached :=
  ⟨reached.timers.setClock timers_le, reached.reconnects.setClock reconnects_le⟩

theorem Waits.reached (waits : Waits before readings wait polled) (reached : before.Reached) :
    polled.Reached := by
  have woken_ge := waits.asked_ge.trans waits.woken_ge
  have start : ({ before.setClock readings.woken with epwaittimeout := wait } :
      CSessionMgr κ ω).Reached := by
    obtain ⟨timers, reconnects⟩ := reached.setClock (waits.timers_le.trans woken_ge)
      (waits.reconnects_le.trans woken_ge)
    exact ⟨timers, reconnects⟩
  have handled := waits.handled
  clear waits
  induction handled with
  | refl => exact start
  | tail _ handles reached =>
      cases handles with
      | timers _ step => exact ⟨reached.timers.step step, reached.reconnects⟩
      | reconnects _ step => exact ⟨reached.timers, reached.reconnects.step step⟩
      | clock timers_le reconnects_le => exact reached.setClock timers_le reconnects_le

/-- The wait is longer than the time to the first expiry by 3 ms at most. -/
theorem Waits.wait_le (waits : Waits before readings wait polled) (reached : before.Reached)
    {object : ω} {exp : Int} (expires : before.timers.Expires object exp) :
    wait ≤ max 0 (exp - readings.asked) + 3 := by
  have wait_eq := waits.wait_eq
  rw [nextEpwaittimeout] at wait_eq
  split at wait_eq
  · obtain ⟨lists, holds⟩ := (reached.timers.setClock
      (waits.timers_le.trans waits.asked_ge)).holds
    have low : (-2147483648 : Int) ≤ 400 := by decide
    obtain ⟨least, least_eq, -, lower⟩ := holds.waits low (by decide)
    have least_le : least ≤ exp - readings.asked := lower (Or.inr ⟨object, exp, expires, rfl⟩)
    obtain ⟨msec, msec_eq, wait_eq⟩ := Option.bind_eq_some_iff.1 wait_eq
    obtain rfl := Option.some.inj (least_eq.symm.trans msec_eq)
    have wait_eq := Option.some.inj wait_eq
    split at wait_eq <;> omega
  · rename_i short
    have wait_eq := Option.some.inj wait_eq
    have short : before.epwaittimeout < 3 := not_le.1 short
    have wait_eq : before.epwaittimeout + 1 = wait := wait_eq
    omega

/-- A round requests a wait that is not too long.  Its checks return, and they notify every timer
that has expired when the wait ends if and only if each of them has expired at the first reading of
the clock. -/
theorem waits_notifies_iff (reached : before.Reached) (waits : Waits before readings wait polled) :
    (∀ object exp, before.timers.Expires object exp →
        wait ≤ max 0 (exp - readings.asked) + 3) ∧
      ∃ enough reconnected fired after,
        (∀ rounds ≥ enough,
          polled.checkBoth rounds readings.now = some (reconnected, fired, after)) ∧
        ((∀ object exp, exp ≤ readings.woken →
            (polled.timers.Expires object exp → object ∈ fired) ∧
            (polled.reconnects.Expires object exp → object ∈ reconnected)) ↔
          ∀ object exp, exp ≤ readings.woken →
            (polled.timers.Expires object exp →
              exp ≤ checkTime polled.timers.clock readings.now) ∧
            (polled.reconnects.Expires object exp →
              exp ≤ checkTime polled.reconnects.clock readings.now)) := by
  refine ⟨fun object exp expires => waits.wait_le reached expires, ?_⟩
  have polled_reached := waits.reached reached
  obtain ⟨enough, fired, unit, returns, fired_iff⟩ := polled_reached.timers.notifies readings.now
  obtain ⟨reconnect_enough, reconnected, reconnect_unit, reconnect_returns, reconnected_iff⟩ :=
    polled_reached.reconnects.notifies readings.now
  refine ⟨max enough reconnect_enough, reconnected, fired, { polled with
    timers := { polled.timers with unit }
    reconnects := { polled.reconnects with unit := reconnect_unit } },
      fun rounds rounds_ge => ?_, ?_⟩
  · rw [checkBoth, returns rounds ((Nat.le_max_left ..).trans rounds_ge),
      reconnect_returns rounds ((Nat.le_max_right ..).trans rounds_ge)]
    rfl
  · exact forall₃_congr fun object exp _ => and_congr
      (forall_congr' (fired_iff object exp)) (forall_congr' (reconnected_iff object exp))

/-- The timers of `twoAttached`, which expire at 8 and 5; there are no reconnect timers. -/
def twoTimers : CSessionMgr Nat Nat where
  timers := Timed.twoAttached
  reconnects := Timed.start (fun _ => 0) (fun _ => 0) 3
  epwaittimeout := 1000
  maxEpollTimeout := 400

theorem reached_twoTimers : twoTimers.Reached where
  timers := ⟨fun _ => 0, fun _ => 0, 3, (((Relation.ReflTransGen.single
    ⟨.getTimerList 5 0, by decide, by decide, rfl⟩).tail
    ⟨.getTimerList 2 1, by decide, by decide, rfl⟩).tail
    ⟨.attachTimer 7 0, by decide, rfl⟩).tail ⟨.attachTimer 8 1, by decide, rfl⟩⟩
  reconnects := ⟨fun _ => 0, fun _ => 0, 3, Relation.ReflTransGen.refl⟩

theorem waits_twoTimers {now wait : Int} (early : 3 ≤ now) (late : now ≤ 6)
    (wait_eq : (twoTimers.setClock now).nextEpwaittimeout = some wait) :
    Waits twoTimers ⟨now, now, 6⟩ wait { twoTimers.setClock 6 with epwaittimeout := wait } where
  timers_le := early
  reconnects_le := early
  asked_ge := le_refl now
  woken_ge := late
  wait_eq := wait_eq
  handled := Relation.ReflTransGen.refl

theorem expires_twoTimers {object : Nat} {exp : Int}
    (expires : twoTimers.timers.Expires object exp) : exp = 5 ∨ exp = 8 := by
  obtain ⟨time, timeout, attached, rfl⟩ := expires
  simp only [twoTimers, Timed.twoAttached] at attached
  by_cases eight : object = 8
  · rw [eight, Function.update_self] at attached
    obtain ⟨rfl, rfl⟩ := Prod.mk.inj (Option.some.inj attached)
    exact Or.inl rfl
  · rw [Function.update_of_ne eight] at attached
    by_cases seven : object = 7
    · rw [seven, Function.update_self] at attached
      obtain ⟨rfl, rfl⟩ := Prod.mk.inj (Option.some.inj attached)
      exact Or.inr rfl
    · rw [Function.update_of_ne seven] at attached
      cases attached

theorem waits_notifies_five : (1 : Int) ≤ max 0 (5 - 5) + 3 ∧
    ∃ rounds reconnected fired after,
      ({ twoTimers.setClock 6 with epwaittimeout := 1 } : CSessionMgr Nat Nat).checkBoth rounds 5 =
        some (reconnected, fired, after) ∧ 8 ∈ fired := by
  have expires : twoTimers.timers.Expires 8 5 := ⟨3, 2, rfl, rfl⟩
  have wait_eq : (twoTimers.setClock 5).nextEpwaittimeout = some 1 := by decide
  obtain ⟨wait_le, enough, reconnected, fired, after, returns, notifies_iff⟩ :=
    waits_notifies_iff reached_twoTimers (waits_twoTimers (by decide) (by decide) wait_eq)
  refine ⟨wait_le 8 5 expires, enough, reconnected, fired, after, returns enough (le_refl _), ?_⟩
  have all_due := notifies_iff.2 fun object exp exp_le => ⟨fun expires => ?_, ?_⟩
  · exact (all_due 8 5 (by decide)).1 expires
  · have expires : twoTimers.timers.Expires object exp := expires
    show exp ≤ 5
    have exp_le : exp ≤ 6 := exp_le
    rcases expires_twoTimers expires with rfl | rfl <;> omega
  · rintro ⟨time, timeout, attached, -⟩
    cases attached

/-- The wait begins at 3 with a timeout for the timer that expires at 5.  It ends at 6, and the
timer is not notified. -/
theorem waits_not_notified :
    Waits twoTimers ⟨3, 3, 6⟩ 3 { twoTimers.setClock 6 with epwaittimeout := 3 } ∧
      (twoTimers.setClock 6).timers.Expires 8 5 ∧
      (({ twoTimers.setClock 6 with epwaittimeout := 3 } : CSessionMgr Nat Nat).checkBoth 3 3).map
        (fun result => (result.1, result.2.1)) = some ([], []) :=
  ⟨waits_twoTimers (by decide) (by decide) (by decide), ⟨3, 2, rfl, rfl⟩, by decide⟩

end CSessionMgr

end Spp
