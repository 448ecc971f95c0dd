import Spp.MicroThread.TimerMng

/-!
# How long the daemon waits

Before each `epoll_wait` the daemon thread asks `EpollGetTimeout` for the number of milliseconds to
wait.  It looks at the top of the heap of sleeping threads, which need not be the first to wake up
after a `HeapDelete`; the timers of `CTimerMng`, which are checked after the same `epoll_wait`, do
not count, and a time of 2^31 milliseconds or more becomes negative, which stands for a wait without
end.

The clock is what `GetLastClock` gives.
-/

namespace Spp

/-- The sleeping threads and the timers of `MtFrame`. -/
structure MtWait (ι κ : Type) where
  sleeplist : HeapList ι
  wakeupTime : ι → Nat
  timer : CTimerMng κ

namespace MtWait

open HeapList

variable {ι κ : Type}

/-- `EpollGetTimeout`; 10 milliseconds if no thread sleeps. -/
def epollGetTimeout (frame : MtWait ι κ) (now : Nat) : Int :=
  match frame.sleeplist.heapTop with
  | none => 10
  | some thread =>
      if frame.wakeupTime thread < now then
        0
      else
        i32 (frame.wakeupTime thread - now : Nat)

/-- `WaitNotify` up to the switch to another thread; `InsertIoWait` puts the thread into the
heap. -/
def waitNotify [DecidableEq ι] (frame : MtWait ι κ) (now : Nat) (thread : ι) (timeout : Nat) :
    Option (MtWait ι κ) := do
  let wakeupTime := Function.update frame.wakeupTime thread (u64 (timeout + now))
  let (_, sleeplist) ← frame.sleeplist.heapPush wakeupTime thread
  return { frame with sleeplist, wakeupTime }

/-- `CTimerMng::start_timer` of the frame's timers. -/
def startTimer [DecidableEq κ] (frame : MtWait ι κ) (now : Nat) (timer : κ) (interval : Nat) :
    Option (MtWait ι κ) := do
  let (_, mng) ← frame.timer.startTimer now (some timer) interval
  return { frame with timer := mng }

/-- Nothing sleeps, and no timer runs. -/
def new (max : Int) (maxItem : Nat) : MtWait ι κ where
  sleeplist := HeapList.new max
  wakeupTime := fun _ => 0
  timer := CTimerMng.new maxItem

/-- A wait of so many milliseconds ends, and it ends no later than the first sleeping thread wakes
up and the first timer expires. -/
structure Timely (frame : MtWait ι κ) (now : Nat) (wait : Int) : Prop where
  ends : 0 ≤ wait
  threads : ∀ thread, frame.sleeplist.index thread ≠ 0 →
    wait ≤ (frame.wakeupTime thread - now : Nat)
  timers : ∀ timer, frame.timer.heap.index timer ≠ 0 →
    wait ≤ (frame.timer.timeExpired timer - now : Nat)

/-- Every timer has so many milliseconds left. -/
def TimersLeft (frame : MtWait ι κ) (now left : Nat) : Prop :=
  ∀ timer, frame.timer.heap.index timer ≠ 0 → left ≤ frame.timer.timeExpired timer - now

/-- Every sleeping thread has so many milliseconds left. -/
def ThreadsLeft (frame : MtWait ι κ) (now left : Nat) : Prop :=
  ∀ thread, frame.sleeplist.index thread ≠ 0 → left ≤ frame.wakeupTime thread - now

/-- While no thread sleeps, every timer has 10 milliseconds left.  Otherwise the thread at the top
is late, or the lower 32 bits of the time it has left are below 2^31 and no thread and no timer has
less left. -/
def TopFirst (frame : MtWait ι κ) (now : Nat) : Prop :=
  match frame.sleeplist.heapTop with
  | none => frame.TimersLeft now 10
  | some thread =>
      frame.wakeupTime thread < now ∨
        (frame.wakeupTime thread - now) % 4294967296 < 2147483648 ∧
          frame.ThreadsLeft now ((frame.wakeupTime thread - now) % 4294967296) ∧
          frame.TimersLeft now ((frame.wakeupTime thread - now) % 4294967296)

variable {frame : MtWait ι κ} {now : Nat}

theorem timely_default (sound : Sound frame.sleeplist) (empty : frame.sleeplist.heapTop = none) :
    frame.Timely now 10 ↔ frame.TimersLeft now 10 := by
  constructor
  · intro timely timer armed
    have := timely.timers timer armed
    omega
  · intro left
    refine ⟨by decide, fun thread sleeps => ?_, fun timer armed => ?_⟩
    · exact absurd (sound.heapTop_eq_none.mp empty thread) sleeps
    · have := left timer armed
      omega

theorem timely_i32 (left : Nat) :
    frame.Timely now (i32 left) ↔ left % 4294967296 < 2147483648 ∧
      frame.ThreadsLeft now (left % 4294967296) ∧ frame.TimersLeft now (left % 4294967296) := by
  constructor
  · intro timely
    have ends := timely.ends
    have short : left % 4294967296 < 2147483648 := by
      unfold i32 at ends
      omega
    have same : i32 left = (left % 4294967296 : Nat) := by
      unfold i32
      omega
    rw [same] at timely
    exact ⟨short, fun thread sleeps => Int.ofNat_le.1 (timely.threads thread sleeps),
      fun timer armed => Int.ofNat_le.1 (timely.timers timer armed)⟩
  · rintro ⟨short, threads, timers⟩
    have same : i32 left = (left % 4294967296 : Nat) := by
      unfold i32
      omega
    rw [same]
    exact ⟨Int.natCast_nonneg _, fun thread sleeps => Int.ofNat_le.2 (threads thread sleeps),
      fun timer armed => Int.ofNat_le.2 (timers timer armed)⟩

/-- The daemon does not sleep too long if and only if the thread at the top is first, in every state
of the two heaps. -/
theorem epollGetTimeout_timely_iff (sound : Sound frame.sleeplist) :
    frame.Timely now (frame.epollGetTimeout now) ↔ frame.TopFirst now := by
  rw [epollGetTimeout, TopFirst]
  cases first : frame.sleeplist.heapTop with
  | none => exact timely_default sound first
  | some thread =>
      by_cases late : frame.wakeupTime thread < now
      · simp only [late, if_true, true_or, iff_true]
        refine ⟨le_rfl, fun other _ => ?_, fun timer _ => ?_⟩ <;> exact Int.natCast_nonneg _
      · simp only [late, if_false, false_or]
        exact timely_i32 _

theorem waitNotify_sound [DecidableEq ι] {thread : ι} {timeout : Nat} {after : MtWait ι κ}
    (sound : Sound frame.sleeplist) (awake : frame.sleeplist.index thread = 0)
    (room : frame.sleeplist.count < frame.sleeplist.max)
    (waits : frame.waitNotify now thread timeout = some after) : Sound after.sleeplist := by
  obtain ⟨sleeplist, pushed, sound_after, -⟩ := heapPush_spec
    (Function.update frame.wakeupTime thread (u64 (timeout + now))) sound room awake
  rw [waitNotify, pushed] at waits
  cases waits
  exact sound_after

theorem startTimer_sleeplist [DecidableEq κ] {timer : κ} {interval : Nat} {after : MtWait ι κ}
    (starts : frame.startTimer now timer interval = some after) :
    after.sleeplist = frame.sleeplist := by
  obtain ⟨started, -, same⟩ := Option.bind_eq_some_iff.mp starts
  cases same
  rfl

/-- A thread begins to wait, and a timer is started. -/
def waiting (now timeout interval : Nat) : Option (MtWait (Fin 1) (Fin 1)) := do
  let frame ← (new 8 0 : MtWait (Fin 1) (Fin 1)).waitNotify now 0 timeout
  frame.startTimer now 0 interval

theorem waiting_sound {timeout interval : Nat} {after : MtWait (Fin 1) (Fin 1)}
    (waits : waiting now timeout interval = some after) : Sound after.sleeplist := by
  rw [waiting, Option.bind_eq_bind, Option.bind_eq_some_iff] at waits
  obtain ⟨frame, first, starts⟩ := waits
  rw [startTimer_sleeplist starts]
  exact waitNotify_sound (sound_new 8) (show _ = 0 from rfl) (by decide) first

/-- A thread waits for 5 milliseconds and a timer for 7. -/
theorem epollGetTimeout_timely_soon :
    ∃ frame, waiting 100 5 7 = some frame ∧ frame.epollGetTimeout 100 = 5 ∧
      frame.Timely 100 (frame.epollGetTimeout 100) := by
  have waits : waiting 100 5 7 = some ((waiting 100 5 7).get (by decide)) :=
    (Option.some_get _).symm
  refine ⟨_, waits, by decide, (epollGetTimeout_timely_iff (waiting_sound waits)).mpr ?_⟩
  exact Or.inr ⟨by decide, by unfold ThreadsLeft; decide, by unfold TimersLeft; decide⟩

/-- A thread that waits for a second hides a timer of 5 milliseconds, and a thread that waits for
2^31 milliseconds makes the daemon wait without end. -/
theorem epollGetTimeout_late :
    (∃ frame, waiting 100 1000 5 = some frame ∧ frame.epollGetTimeout 100 = 1000 ∧
      frame.timer.heap.index 0 ≠ 0 ∧ frame.timer.timeExpired 0 - 100 = 5) ∧
    ∃ frame, waiting 100 2147483648 5 = some frame ∧
      frame.epollGetTimeout 100 = -2147483648 ∧ frame.sleeplist.index 0 ≠ 0 := by
  constructor
  · exact ⟨(waiting 100 1000 5).get (by decide), (Option.some_get _).symm,
      by decide, by decide, by decide⟩
  · exact ⟨(waiting 100 2147483648 5).get (by decide), (Option.some_get _).symm,
      by decide, by decide⟩

end MtWait

end Spp
