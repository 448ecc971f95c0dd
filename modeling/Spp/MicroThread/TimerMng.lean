import Spp.MicroThread.HeapRun

/-!
# The timers, `CTimerMng`

The timer manager of `sync_frame/micro_thread/heap_timer.cpp`: a heap of timers ordered by their
absolute expiry.  `check_expired` notifies the top of the heap for as long as it has expired, so it
finds every expired timer only if the heap is ordered.
-/

namespace Spp

/-- `CTimerMng` -/
structure CTimerMng (ι : Type) where
  heap : HeapList ι
  timeExpired : ι → Nat

namespace CTimerMng

open HeapList

variable {ι : Type} [DecidableEq ι]

/-- `CTimerMng::CTimerMng` -/
def new (maxItem : Nat) : CTimerMng ι where
  heap := HeapList.new (i32 (if maxItem < 100000 then 100000 else maxItem))
  timeExpired := fun _ => 0

/-- `start_timer` at the clock `now`; a missing timer is a null pointer. -/
def startTimer (mng : CTimerMng ι) (now : Nat) (timerable : Option ι) (interval : Nat) :
    Option (Bool × CTimerMng ι) :=
  match timerable with
  | none => some (false, mng)
  | some timer => do
      let timeExpired := Function.update mng.timeExpired timer (u64 (now + interval))
      let (ret, heap) ← mng.heap.heapPush timeExpired timer
      return (!decide (ret < 0), ⟨heap, timeExpired⟩)

/-- `stop_timer` -/
def stopTimer (mng : CTimerMng ι) (timerable : Option ι) : Option (CTimerMng ι) :=
  match timerable with
  | none => some mng
  | some timer => do
      let (_, heap) ← mng.heap.heapDelete mng.timeExpired timer
      return { mng with heap }

/-- The loop of `check_expired`, for at most `rounds` rounds, with the timers it notifies. -/
def checkExpiredLoop (timeExpired : ι → Nat) (now : Nat) :
    (rounds : Nat) → HeapList ι → Option (List ι × HeapList ι)
  | 0, _ => none
  | rounds + 1, heap =>
      match heap.heapTop with
      | none => some ([], heap)
      | some timer =>
          if timeExpired timer ≤ now then do
            let (_, heap) ← heap.heapDelete timeExpired timer
            let (notified, heap) ← checkExpiredLoop timeExpired now rounds heap
            return (timer :: notified, heap)
          else
            some ([], heap)

/-- `check_expired` at the clock `now`, with the timers it notifies. -/
def checkExpired (mng : CTimerMng ι) (now : Nat) : Option (List ι × CTimerMng ι) := do
  let (notified, heap) ← checkExpiredLoop mng.timeExpired now (mng.heap.count + 1) mng.heap
  return (notified, { mng with heap })

/-! ## Expired timers -/

variable {timer : ι} {maxItem : Nat}

section Expired

variable {timeExpired : ι → Nat} {heap : HeapList ι}

theorem checkExpiredLoop_spec (now : Nat) {rounds : Nat} (sound : Sound heap)
    (small : heap.max < 1073741824) (ordered : Ordered timeExpired heap)
    (enough : heap.count < rounds) :
    ∃ notified after, checkExpiredLoop timeExpired now rounds heap = some (notified, after) ∧
      Sound after ∧ after.max = heap.max ∧ Ordered timeExpired after ∧ notified.Nodup ∧
      (∀ timer, timer ∈ notified ↔ heap.index timer ≠ 0 ∧ timeExpired timer ≤ now) ∧
      (∀ timer, after.index timer = 0 ↔ heap.index timer = 0 ∨ timeExpired timer ≤ now) := by
  induction rounds generalizing heap with
  | zero => omega
  | succ rounds induction =>
      unfold checkExpiredLoop
      cases top_eq : heap.heapTop with
      | none =>
          have out : ∀ timer, heap.index timer = 0 := sound.heapTop_eq_none.1 top_eq
          exact ⟨[], heap, rfl, sound, rfl, ordered, List.nodup_nil, by simp [out], by simp [out]⟩
      | some top =>
          obtain ⟨present, least⟩ := sound.heapTop_least ordered top_eq
          by_cases due : timeExpired top ≤ now
          · obtain ⟨rest, deleted, sound_rest, count_eq, max_eq, member_iff, ordered_rest⟩ :=
              heapDelete_spec timeExpired sound small present
            have at_root : ParentLeLast timeExpired heap top := by
              intro parent last at_parent
              rw [sound.index_of_top top_eq, sound.rest (1 / 2) (Or.inl rfl)] at at_parent
              exact absurd at_parent (by simp)
            obtain ⟨notified, after, loop, sound_after, max_after, ordered_after, nodup, mem_iff,
              left_iff⟩ :=
              induction sound_rest (max_eq.trans_lt small) (ordered_rest ordered at_root) (by omega)
            refine ⟨top :: notified, after, ?_, sound_after, max_after.trans max_eq, ordered_after,
              ?_, ?_, ?_⟩
            · simp only [due, deleted, loop, Option.bind_eq_bind, Option.bind_some, if_true]
              rfl
            · refine List.nodup_cons.2 ⟨fun member => ?_, nodup⟩
              exact ((mem_iff top).1 member).1 ((member_iff top).2 (Or.inr rfl))
            · simp only [List.mem_cons, mem_iff, Ne, member_iff]
              grind
            · simp only [left_iff, member_iff]
              grind
          · have later : ∀ timer, heap.index timer ≠ 0 → ¬ timeExpired timer ≤ now := by
              intro timer timer_present
              have := least timer timer_present
              omega
            exact ⟨[], heap, by simp only [due, if_false], sound, rfl, ordered, List.nodup_nil,
              by grind, by grind⟩

end Expired

/-! ## Runs -/

/-- The calls of the manager. -/
inductive Call (ι : Type) where
  | start (timer : ι) (interval : Nat)
  | stop (timer : ι)
  | check

/-- The timers, and what is armed. -/
structure Tracked (ι : Type) where
  mng : CTimerMng ι
  clock : Nat
  /-- Arming time plus interval of the timers started and neither stopped nor notified since. -/
  armed : ι → Option Nat

/-- Nothing is armed. -/
def Tracked.start (maxItem : Nat) : Tracked ι where
  mng := new maxItem
  clock := 0
  armed := fun _ => none

/-- A call at a time. -/
def Tracked.step (state : Tracked ι) (now : Nat) : Call ι → Option (Tracked ι)
  | .start timer interval => do
      let (started, mng) ← state.mng.startTimer now (some timer) interval
      return ⟨mng, now, if started then
        Function.update state.armed timer (some (now + interval)) else state.armed⟩
  | .stop timer => do
      let mng ← state.mng.stopTimer (some timer)
      return ⟨mng, now, Function.update state.armed timer none⟩
  | .check => do
      let (notified, mng) ← state.mng.checkExpired now
      return ⟨mng, now, fun timer => if timer ∈ notified then none else state.armed timer⟩

/-- Calls at later and later times. -/
def Tracked.run (state : Tracked ι) : List (Nat × Call ι) → Option (Tracked ι)
  | [] => some state
  | (now, call) :: calls =>
      if state.clock ≤ now then do
        let state ← state.step now call
        state.run calls
      else
        none

/-- A timer is started when it is not armed, and its expiry is a 64-bit value; a timer is stopped
when the one above it in the heap expires no later than the last one of the heap. -/
def Call.Safe (state : Tracked ι) (now : Nat) : Call ι → Prop
  | .start timer interval =>
      state.armed timer = none ∧ now + interval < 18446744073709551616
  | .stop timer => ParentLeLast state.mng.timeExpired state.mng.heap timer
  | .check => True

/-- Runs of safe calls at times that do not go back. -/
def SafeReaches (maxItem : Nat) : Tracked ι → Prop :=
  Relation.ReflTransGen
    (fun before after => ∃ now call, before.clock ≤ now ∧ Call.Safe before now call ∧
      before.step now call = some after)
    (Tracked.start maxItem)

/-- The heap is ordered and holds the armed timers. -/
structure Tracked.Valid (state : Tracked ι) : Prop where
  sound : Sound state.mng.heap
  small : state.mng.heap.max < 1073741824
  ordered : Ordered state.mng.timeExpired state.mng.heap
  armed_eq : ∀ timer, state.armed timer =
    if state.mng.heap.index timer = 0 then none else some (state.mng.timeExpired timer)

variable {state : Tracked ι}

section Steps

variable {now : Nat}

omit [DecidableEq ι] in
theorem Tracked.Valid.armed_eq_none (valid : state.Valid) :
    state.armed timer = none ↔ state.mng.heap.index timer = 0 := by
  rw [valid.armed_eq]
  split <;> simp_all

theorem Tracked.Valid.startTimer (valid : state.Valid) {interval : Nat}
    (idle : state.armed timer = none) (small : now + interval < 18446744073709551616) :
    ∃ after, state.step now (.start timer interval) = some after ∧ after.Valid := by
  have fresh : state.mng.heap.index timer = 0 := valid.armed_eq_none.1 idle
  have expiry : u64 ((now : Int) + interval) = now + interval := by
    unfold u64
    omega
  have expiry_eq : ∀ other, state.mng.heap.index other ≠ 0 →
      Function.update state.mng.timeExpired timer (now + interval) other =
        state.mng.timeExpired other := by
    rintro other present
    exact Function.update_of_ne (by rintro rfl; exact present fresh) ..
  have ordered := valid.sound.ordered_congr expiry_eq valid.ordered
  by_cases room : state.mng.heap.count < state.mng.heap.max
  · obtain ⟨heap, pushed, sound, -, max_eq, member_iff, ordered_after⟩ :=
      heapPush_spec (Function.update state.mng.timeExpired timer (now + interval)) valid.sound room
        fresh
    refine ⟨⟨⟨heap, Function.update state.mng.timeExpired timer (now + interval)⟩, now,
      Function.update state.armed timer (some (now + interval))⟩, ?_, sound,
      max_eq.trans_lt valid.small, ordered_after ordered, fun other => ?_⟩
    · simp [Tracked.step, CTimerMng.startTimer, expiry, pushed]
    · have := member_iff other
      by_cases is_timer : other = timer
      · subst is_timer
        simp_all
      · simp_all [valid.armed_eq]
  · refine ⟨⟨⟨state.mng.heap, Function.update state.mng.timeExpired timer (now + interval)⟩, now,
      state.armed⟩, ?_, valid.sound, valid.small, ordered, fun other => ?_⟩
    · simp [Tracked.step, CTimerMng.startTimer, expiry, heapPush, heapFull, Nat.not_lt.1 room]
    · show state.armed other = _
      rw [valid.armed_eq]
      split
      · rfl
      · exact congrArg some (expiry_eq other ‹_›).symm

theorem Tracked.Valid.stopTimer (valid : state.Valid)
    (safe : ParentLeLast state.mng.timeExpired state.mng.heap timer) :
    ∃ after, state.step now (.stop timer) = some after ∧ after.Valid := by
  by_cases present : state.mng.heap.index timer = 0
  · refine ⟨⟨state.mng, now, state.armed⟩, ?_, { valid with }⟩
    have idle : Function.update state.armed timer none = state.armed :=
      Function.update_eq_self_iff.2 (valid.armed_eq_none.2 present).symm
    by_cases empty : state.mng.heap.count = 0
    · simp [Tracked.step, CTimerMng.stopTimer, heapDelete, heapEmpty, empty, idle]
    · simp [Tracked.step, CTimerMng.stopTimer, heapDelete, heapEmpty, empty, present, idle]
  · obtain ⟨heap, deleted, sound, -, max_eq, member_iff, ordered⟩ :=
      heapDelete_spec state.mng.timeExpired valid.sound valid.small present
    refine ⟨⟨⟨heap, state.mng.timeExpired⟩, now, Function.update state.armed timer none⟩, ?_, sound,
      max_eq.trans_lt valid.small, ordered valid.ordered safe, fun other => ?_⟩
    · simp [Tracked.step, CTimerMng.stopTimer, deleted]
    · have := member_iff other
      by_cases is_timer : other = timer
      · subst is_timer
        simp_all
      · simp_all [valid.armed_eq]

theorem Tracked.Valid.checkExpired (valid : state.Valid) (now : Nat) :
    ∃ notified mng, state.mng.checkExpired now = some (notified, mng) ∧ notified.Nodup ∧
      (∀ timer, timer ∈ notified ↔ ∃ expiry, state.armed timer = some expiry ∧ expiry ≤ now) ∧
      Valid ⟨mng, now, fun timer => if timer ∈ notified then none else state.armed timer⟩ := by
  obtain ⟨notified, heap, loop, sound, max_eq, ordered, nodup, mem_iff, left_iff⟩ :=
    checkExpiredLoop_spec now valid.sound valid.small valid.ordered (Nat.lt_succ_self _)
  refine ⟨notified, ⟨heap, state.mng.timeExpired⟩, ?_, nodup, fun timer => ?_, sound,
    max_eq.trans_lt valid.small, ordered, fun timer => ?_⟩
  · simp only [CTimerMng.checkExpired, loop, Option.bind_eq_bind, Option.bind_some]
    rfl
  · rw [mem_iff, valid.armed_eq]
    split <;> simp_all
  · show (if timer ∈ notified then none else state.armed timer) = _
    by_cases expired : timer ∈ notified
    · rw [if_pos expired, if_pos ((left_iff timer).2 (Or.inr ((mem_iff timer).1 expired).2))]
    · have left : heap.index timer = 0 ↔ state.mng.heap.index timer = 0 := by
        refine (left_iff timer).trans (or_iff_left_of_imp fun due => ?_)
        by_contra in_heap
        exact expired ((mem_iff timer).2 ⟨in_heap, due⟩)
      rw [if_neg expired, valid.armed_eq]
      simp only [left]

theorem Tracked.Valid.step (valid : state.Valid) {call : Call ι} (safe : Call.Safe state now call) :
    ∃ after, state.step now call = some after ∧ after.Valid := by
  cases call with
  | start timer interval => exact valid.startTimer safe.1 safe.2
  | stop timer => exact valid.stopTimer safe
  | check =>
      obtain ⟨notified, mng, returns, -, -, next_valid⟩ := valid.checkExpired now
      refine ⟨_, ?_, next_valid⟩
      simp only [Tracked.step, returns, Option.bind_eq_bind, Option.bind_some]
      rfl

end Steps

theorem SafeReaches.valid (small : maxItem < 1073741824) (reach : SafeReaches maxItem state) :
    state.Valid := by
  induction reach with
  | refl =>
      refine ⟨sound_new _, new_max_lt (by unfold i32; split <;> omega),
        fun pos pos_ge pos_le => ?_, fun timer => rfl⟩
      have pos_le : pos ≤ 0 := pos_le
      omega
  | tail _ step valid =>
      obtain ⟨now, call, -, safe, returns⟩ := step
      obtain ⟨next, stepped, next_valid⟩ := valid.step safe
      obtain rfl := Option.some.inj (stepped.symm.trans returns)
      exact next_valid

/-- In every run of safe calls, a call of `check_expired` at any time notifies exactly the
armed timers whose expiry has come, each once. -/
theorem safeReaches_checkExpired {maxItem : Nat} (small : maxItem < 1073741824)
    {state : Tracked ι} (reach : SafeReaches maxItem state) (now : Nat) :
    ∃ notified mng, state.mng.checkExpired now = some (notified, mng) ∧ notified.Nodup ∧
      ∀ timer, timer ∈ notified ↔ ∃ expiry, state.armed timer = some expiry ∧ expiry ≤ now := by
  obtain ⟨notified, mng, returns, nodup, mem_iff, -⟩ := (reach.valid small).checkExpired now
  exact ⟨notified, mng, returns, nodup, mem_iff⟩

theorem SafeReaches.call (reach : SafeReaches maxItem state) (now : Nat) (call : Call ι)
    (later : state.clock ≤ now) (safe : Call.Safe state now call)
    (returns : (state.step now call).isSome) :
    SafeReaches maxItem ((state.step now call).get returns) :=
  Relation.ReflTransGen.tail reach ⟨now, call, later, safe, (Option.some_get returns).symm⟩

/-- Timers 1 and 2 are started at time 10 for 30 and 20 ms, and timer 2 is due at time 35. -/
theorem safeReaches_checkExpired_sample :
    ∃ state : Tracked (Fin 8), SafeReaches 0 state ∧
      ∃ notified mng, state.mng.checkExpired 35 = some (notified, mng) ∧ notified.Nodup ∧
        2 ∈ notified ∧ 1 ∉ notified := by
  have start : SafeReaches 0 (Tracked.start 0 : Tracked (Fin 8)) := Relation.ReflTransGen.refl
  have first := start.call 10 (.start 1 30) (by decide) ⟨rfl, by decide⟩ (by decide)
  have second := first.call 10 (.start 2 20) (by decide)
    ⟨by decide, by decide⟩ (by decide)
  obtain ⟨notified, mng, returns, nodup, mem_iff⟩ := safeReaches_checkExpired (by decide) second 35
  refine ⟨_, second, notified, mng, returns, nodup, (mem_iff 2).2 ⟨30, by decide⟩, ?_⟩
  rw [mem_iff]
  rintro ⟨expiry, armed, due⟩
  have armed_eq : expiry = 40 := (Option.some.inj armed).symm.trans (by decide)
  omega

/-! ## The order of the notifications -/

theorem checkExpiredLoop_sorted {timeExpired : ι → Nat} {heap after : HeapList ι} {now : Nat}
    {rounds : Nat} {notified : List ι} (sound : Sound heap) (small : heap.max < 1073741824)
    (ordered : Ordered timeExpired heap)
    (returns : checkExpiredLoop timeExpired now rounds heap = some (notified, after)) :
    notified.Pairwise (fun first second => timeExpired first ≤ timeExpired second) ∧
      ∀ timer ∈ notified, heap.index timer ≠ 0 := by
  induction rounds generalizing heap notified with
  | zero => cases returns
  | succ rounds induction =>
      unfold checkExpiredLoop at returns
      cases top_eq : heap.heapTop with
      | none =>
          rw [top_eq] at returns
          cases returns
          exact ⟨.nil, nofun⟩
      | some top =>
          rw [top_eq] at returns
          obtain ⟨present, least⟩ := sound.heapTop_least ordered top_eq
          dsimp only at returns
          split at returns
          · obtain ⟨rest, deleted, sound_rest, -, max_eq, member_iff, ordered_rest⟩ :=
              heapDelete_spec timeExpired sound small present
            have at_root : ParentLeLast timeExpired heap top := by
              intro parent last at_parent
              rw [sound.index_of_top top_eq, sound.rest (1 / 2) (Or.inl rfl)] at at_parent
              cases at_parent
            simp only [deleted, Option.bind_eq_bind, Option.bind_some] at returns
            obtain ⟨⟨later, _⟩, loop, tail⟩ := Option.bind_eq_some_iff.1 returns
            cases tail
            obtain ⟨sorted, inside⟩ :=
              induction sound_rest (max_eq.trans_lt small) (ordered_rest ordered at_root) loop
            have in_heap (timer : ι) (member : timer ∈ later) : heap.index timer ≠ 0 :=
              fun out => inside timer member ((member_iff timer).2 (Or.inl out))
            refine ⟨sorted.cons fun timer member => least timer (in_heap timer member), ?_⟩
            intro timer member
            rcases List.mem_cons.mp member with rfl | member
            · exact present
            · exact in_heap timer member
          · cases returns
            exact ⟨.nil, nofun⟩

/-- A call of `check_expired` notifies the timers in the order of their expiry. -/
theorem safeReaches_notified_sorted {maxItem : Nat} (small : maxItem < 1073741824)
    {state : Tracked ι} (reach : SafeReaches maxItem state) {now : Nat} {notified : List ι}
    {mng : CTimerMng ι}
    (returns : state.mng.checkExpired now = some (notified, mng)) :
    notified.Pairwise fun first second =>
      state.mng.timeExpired first ≤ state.mng.timeExpired second := by
  obtain ⟨⟨loop_notified, heap⟩, loop, tail⟩ := Option.bind_eq_some_iff.1 returns
  cases tail
  have valid := reach.valid small
  exact (checkExpiredLoop_sorted valid.sound valid.small valid.ordered loop).1

theorem safeReaches_notified_sorted_sample :
    ∃ state : Tracked (Fin 8), ∃ notified mng, state.mng.checkExpired 45 = some (notified, mng) ∧
      notified.Pairwise fun first second =>
        state.mng.timeExpired first ≤ state.mng.timeExpired second := by
  have start : SafeReaches 0 (Tracked.start 0 : Tracked (Fin 8)) := Relation.ReflTransGen.refl
  have first := start.call 10 (.start 1 30) (by decide) ⟨rfl, by decide⟩ (by decide)
  have second := first.call 10 (.start 2 20) (by decide)
    ⟨by decide, by decide⟩ (by decide)
  obtain ⟨notified, mng, returns, -⟩ := (second.valid (by decide)).checkExpired 45
  exact ⟨_, notified, mng, returns, safeReaches_notified_sorted (by decide) second returns⟩

/-- Seven timers are started at time 0 for as many ms as their number says, timer 5 is stopped, and
1 and 2 expire. -/
def stoppingCalls : List (Nat × Call (Fin 9)) :=
  [(0, .start 1 1), (0, .start 4 4), (0, .start 2 2), (0, .start 5 5), (0, .start 7 7),
    (0, .start 6 6), (0, .start 3 3), (0, .stop 5), (2, .check)]

/-- Timer 3 stands below timer 4 in the heap and is not notified at its time. -/
theorem run_stopping :
    ∃ state, Tracked.run (Tracked.start 100000) stoppingCalls = some state ∧
      state.armed 3 = some 3 ∧ (state.mng.checkExpired 3).map Prod.fst = some [] := by
  exact ⟨(Tracked.run (Tracked.start 100000) stoppingCalls).get (by decide),
    (Option.some_get _).symm, by decide, by decide⟩

end CTimerMng
end Spp
