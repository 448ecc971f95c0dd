import Spp.Comm.TimerList

/-!
# Runs of a timer unit

Each list stays sorted by the time of expiry, so a check notifies exactly the objects that have
expired, although it stops in each list at the first one that has not.
-/

namespace Spp

open CTimerUnit

/-- A unit and the clock, with the time of the last attachment of each object that is attached and
the timeout of its list. -/
structure Timed (κ ω : Type) where
  unit : CTimerUnit κ ω
  clock : Int
  attached : ω → Option (Int × Int)

namespace Timed

variable {κ ω : Type} [DecidableEq κ] [DecidableEq ω]

/-- The calls, and the passing of time. -/
inductive Event (κ ω : Type) where
  | getTimerList (msec : Int) (fresh : κ)
  | attachTimer (object : ω) (list : κ)
  | disableTimer (object : ω)
  | checkExpired (rounds : Nat) (now : Int)
  | tick (clock : Int)

/-- One step.  `new` gives memory that is not in use, and an object is attached to a list that
`GetTimerList` has returned. -/
def Steps (before after : Timed κ ω) : Event κ ω → Prop
  | .getTimerList msec fresh => 0 < msec ∧ fresh ∉ before.unit.next ∧
      after = { before with unit := (before.unit.getTimerList msec fresh).2 }
  | .attachTimer object list => list ∈ before.unit.next ∧
      after = { before with
        unit := before.unit.attachTimer before.clock object list
        attached := Function.update before.attached object
          (some (before.clock, before.unit.timeout list)) }
  | .disableTimer object => after = { before with
      unit := before.unit.disableTimer object
      attached := Function.update before.attached object none }
  | .checkExpired rounds now => ∃ fired unit,
      before.unit.checkExpired rounds before.clock now = some (fired, unit) ∧
      after = { before with
        unit := unit
        attached := fun object => if object ∈ fired then none else before.attached object }
  | .tick clock => before.clock ≤ clock ∧ after = { before with clock := clock }

/-- A new unit; nothing is attached. -/
def start (timeout : κ → Int) (objexp : ω → Int) (clock : Int) : Timed κ ω :=
  ⟨CTimerUnit.init timeout objexp, clock, fun _ => none⟩

/-- Runs from a unit without lists. -/
def Reaches (state : Timed κ ω) : Prop :=
  ∃ timeout objexp clock, Relation.ReflTransGen
    (fun before after => ∃ event : Event κ ω, before.Steps after event)
    (start timeout objexp clock) state

/-- An object is attached and its time of expiry is `exp`. -/
def Expires (state : Timed κ ω) (object : ω) (exp : Int) : Prop :=
  ∃ time timeout, state.attached object = some (time, timeout) ∧ exp = time + timeout

/-- An object is in no list. -/
def Detached (unit : CTimerUnit κ ω) (object : ω) : Prop :=
  unit.links.next (.inr object) = .inr object ∧ unit.links.prev (.inr object) = .inr object

/-- Timers fire at their times, and no earlier. -/
structure Timely (state : Timed κ ω) : Prop where
  sorted : ∃ lists, state.unit.links.Rings lists ∧ ∀ list ∈ state.unit.next,
    (lists (some list)).Pairwise fun first second =>
      state.unit.objexp first ≤ state.unit.objexp second
  fires : ∀ now, ∃ enough fired after,
    (∀ rounds ≥ enough, state.unit.checkExpired rounds state.clock now = some (fired, after)) ∧
    fired.Nodup ∧
    (∀ object, object ∈ fired ↔
      ∃ exp, state.Expires object exp ∧ exp ≤ checkTime state.clock now) ∧
    ∀ object ∈ fired, Detached after object
  /-- `ExpireMicroSeconds` gives the time until the first expiry. -/
  waits : ∀ msec, -2147483648 ≤ msec → msec < 2147483648 → ∃ wait,
    state.unit.expireMicroSeconds state.clock msec = some (max 0 wait) ∧
    IsLeast (insert msec {wait | ∃ object exp, state.Expires object exp ∧ wait = exp - state.clock})
      wait

/-- The lists are rings in the order of the expiry times. -/
structure Holds (state : Timed κ ω) (lists : Option κ → List ω) : Prop where
  rings : state.unit.links.Rings lists
  pending : lists none = []
  nodup : state.unit.next.Nodup
  used : ∀ list object, object ∈ lists (some list) → list ∈ state.unit.next
  timeout_pos : ∀ list ∈ state.unit.next, 0 < state.unit.timeout list
  sorted : ∀ list, (lists list).Pairwise fun first second =>
    state.unit.objexp first ≤ state.unit.objexp second
  exp_le : ∀ list, ∀ object ∈ lists (some list),
    state.unit.objexp object ≤ state.clock + state.unit.timeout list
  expires_iff : ∀ object exp, state.Expires object exp ↔
    ∃ list, object ∈ lists (some list) ∧ state.unit.objexp object = exp

section Holds

variable {state before after : Timed κ ω} {lists : Option κ → List ω}

omit [DecidableEq κ] [DecidableEq ω] in
theorem holds_start (timeout : κ → Int) (objexp : ω → Int) (clock : Int) :
    Holds (start timeout objexp clock) fun _ => [] where
  rings := Links.rings_alone
  pending := rfl
  nodup := List.nodup_nil
  used := fun _ _ mem => absurd mem List.not_mem_nil
  timeout_pos := fun _ mem => absurd mem List.not_mem_nil
  sorted := fun _ => List.Pairwise.nil
  exp_le := fun _ _ mem => absurd mem List.not_mem_nil
  expires_iff := by simp [Expires, start]

theorem Holds.getTimerList (holds : Holds state lists) {msec : Int} (pos : 0 < msec) {fresh : κ}
    (unused : fresh ∉ state.unit.next) :
    Holds { state with unit := (state.unit.getTimerList msec fresh).2 } lists := by
  rw [CTimerUnit.getTimerList]
  split
  · exact holds
  · have empty : lists (some fresh) = [] := List.eq_nil_iff_forall_not_mem.2 fun object mem =>
      unused (holds.used fresh object mem)
    have other : ∀ list ∈ state.unit.next,
        Function.update state.unit.timeout fresh msec list = state.unit.timeout list := by
      intro list mem
      refine Function.update_of_ne ?_ ..
      rintro rfl
      exact unused mem
    have links_eq := holds.rings.linked.init_eq (holds.rings.next_nil empty)
    refine ⟨?_, holds.pending, List.nodup_cons.2 ⟨unused, holds.nodup⟩, ?_, ?_, holds.sorted, ?_,
      holds.expires_iff⟩
    · rw [links_eq]
      exact holds.rings
    · exact fun list object mem => List.mem_cons_of_mem fresh (holds.used list object mem)
    · refine List.forall_mem_cons.2 ⟨?_, fun list mem => ?_⟩
      · exact lt_of_lt_of_eq pos (Function.update_self fresh msec state.unit.timeout).symm
      · exact lt_of_lt_of_eq (holds.timeout_pos list mem) (other list mem).symm
    · intro list object mem
      show _ ≤ state.clock + Function.update state.unit.timeout fresh msec list
      rw [other list (holds.used list object mem)]
      exact holds.exp_le list object mem

/-- The objects of the lists after an object has moved to the end of one of them. -/
theorem mem_moved (nodup : ∀ head, (lists head).Nodup) {object other : ω} {target head : Option κ} :
    other ∈ Function.update (fun head => (lists head).erase object) target
      ((lists target).erase object ++ [object]) head ↔
      if other = object then head = target else other ∈ lists head := by
  have erased (head : Option κ) : other ∈ (lists head).erase object ↔
      other ≠ object ∧ other ∈ lists head := (nodup head).mem_erase_iff
  rw [Function.update_apply]
  split
  · rename_i same
    rw [List.mem_append, List.mem_singleton, erased, same]
    split <;> simp_all
  · rw [erased]
    split <;> simp_all

theorem Holds.attachTimer (holds : Holds state lists) (object : ω) {list : κ}
    (member : list ∈ state.unit.next) :
    Holds { state with
      unit := state.unit.attachTimer state.clock object list
      attached := Function.update state.attached object
        (some (state.clock, state.unit.timeout list)) }
      (Function.update (fun head => (lists head).erase object) (some list)
        ((lists (some list)).erase object ++ [object])) := by
  have exp_eq : (state.unit.attachTimer state.clock object list).objexp =
      Function.update state.unit.objexp object (state.clock + state.unit.timeout list) :=
    if_pos (holds.timeout_pos list member)
  have erased_sorted (head : Option κ) : ((lists head).erase object).Pairwise fun first second =>
      (state.unit.attachTimer state.clock object list).objexp first ≤
        (state.unit.attachTimer state.clock object list).objexp second := by
    refine ((holds.sorted head).sublist List.erase_sublist).imp_of_mem ?_
    simp only [(holds.rings.nodup head).mem_erase_iff, exp_eq, Function.update_apply]
    grind
  refine ⟨holds.rings.moveTail object (some list), ?_, holds.nodup, ?_, holds.timeout_pos, ?_, ?_,
    ?_⟩
  · rw [Function.update_of_ne (by simp), holds.pending]
    rfl
  · intro other_list other
    have used : _ → other_list ∈ (state.unit.attachTimer state.clock object list).next :=
      holds.used other_list other
    rw [mem_moved holds.rings.nodup]
    grind [CTimerUnit.attachTimer]
  · intro head
    rw [Function.update_apply]
    split
    · refine List.pairwise_append.2 ⟨erased_sorted _, List.pairwise_singleton .., ?_⟩
      have exp_le := holds.exp_le list
      simp only [(holds.rings.nodup _).mem_erase_iff, exp_eq, Function.update_apply]
      grind
    · exact erased_sorted head
  · intro other_list other
    have exp_le := holds.exp_le other_list other
    rw [mem_moved holds.rings.nodup]
    simp only [exp_eq, Function.update_apply]
    show _ → _ ≤ state.clock + state.unit.timeout other_list
    grind
  · intro other exp
    by_cases same : other = object
    · simp [Expires, mem_moved holds.rings.nodup, exp_eq, same, eq_comm]
    · simpa [Expires, mem_moved holds.rings.nodup, exp_eq, same] using holds.expires_iff other exp

theorem Holds.disableTimer (holds : Holds state lists) (object : ω) :
    Holds { state with
      unit := state.unit.disableTimer object
      attached := Function.update state.attached object none }
      fun head => (lists head).erase object := by
  have mem_before {head : Option κ} {other : ω} (mem : other ∈ (lists head).erase object) :
      other ∈ lists head := List.mem_of_mem_erase mem
  refine ⟨holds.rings.delInit object, ?_, holds.nodup, fun list other mem =>
    holds.used list other (mem_before mem), holds.timeout_pos, fun head =>
    (holds.sorted head).sublist List.erase_sublist, fun list other mem =>
    holds.exp_le list other (mem_before mem), ?_⟩
  · rw [holds.pending]
    rfl
  · intro other exp
    by_cases same : other = object
    · simp [Expires, (holds.rings.nodup _).mem_erase_iff, same]
    · simpa [Expires, (holds.rings.nodup _).mem_erase_iff, CTimerUnit.disableTimer,
        CTimerUnit.listDel, same] using holds.expires_iff other exp

theorem Holds.checkExpired_eq (holds : Holds state lists) (now : Int) : ∃ enough fired links,
    (∀ rounds ≥ enough, state.unit.checkExpired rounds state.clock now =
      some (fired, { state.unit with links := links })) ∧ fired.Nodup ∧
    (∀ object, object ∈ fired ↔ ∃ list, object ∈ lists (some list) ∧
      state.unit.objexp object ≤ checkTime state.clock now) ∧
    links.Rings fun list => (lists list).filter fun object =>
      state.unit.objexp object > checkTime state.clock now := by
  obtain ⟨links, checks, rings⟩ := checkLists_eq state.clock (checkTime state.clock now)
    holds.nodup holds.rings holds.sorted
  rw [checkTime_checkTime] at checks rings
  let lengths := state.unit.next.map fun list => (lists (some list)).length
  refine ⟨lengths.sum + 1, state.unit.next.flatMap fun list => (lists (some list)).filter
    fun object => !decide (state.unit.objexp object > checkTime state.clock now), links,
    fun rounds enough => ?_, ?_, fun object => ?_, ?_⟩
  · obtain ⟨rounds, rfl⟩ := Nat.exists_eq_add_of_le' (Nat.le_trans (Nat.le_add_left ..) enough)
    have no_pending : state.unit.checkPending (rounds + 1) = some ([], state.unit) := by
      rw [checkPending, notifyLoop, if_pos ((listEmpty_iff holds.rings).2 holds.pending)]
    rw [CTimerUnit.checkExpired, no_pending]
    simp only [Option.bind_eq_bind, Option.bind_some]
    rw [checks (rounds + 1) fun list mem => ?_]
    · rfl
    · have length_mem : (lists (some list)).length ∈ lengths := List.mem_map.2 ⟨list, mem, rfl⟩
      exact lt_of_lt_of_le (Nat.lt_succ_of_le (List.le_sum_of_mem length_mem)) enough
  · refine List.nodup_flatMap.2 ⟨fun list _ => (holds.rings.nodup _).filter _, ?_⟩
    refine holds.nodup.imp fun {first second} ne => ?_
    intro object first_mem second_mem
    exact ne (Option.some.inj (holds.rings.unique (List.mem_filter.1 first_mem).1
      (List.mem_filter.1 second_mem).1))
  · simp only [List.mem_flatMap, List.mem_filter, Bool.not_eq_true', decide_eq_false_iff_not,
      not_lt,
      gt_iff_lt]
    constructor
    · rintro ⟨list, -, found⟩
      exact ⟨list, found⟩
    · rintro ⟨list, found⟩
      exact ⟨list, holds.used list object found.1, found⟩
  · convert rings using 1
    funext list
    split
    · rfl
    · rename_i unused
      suffices empty : lists list = [] by
        rw [empty, List.filter_nil]
      cases list with
      | none => exact holds.pending
      | some list =>
          exact List.eq_nil_iff_forall_not_mem.2 fun object mem =>
            unused (List.mem_map_of_mem (holds.used list object mem))

theorem Holds.checkExpired (holds : Holds state lists) {rounds : Nat} {now : Int} {fired : List ω}
    {unit : CTimerUnit κ ω}
    (checks : state.unit.checkExpired rounds state.clock now = some (fired, unit)) :
    Holds { state with
      unit := unit
      attached := fun object => if object ∈ fired then none else state.attached object }
      fun list => (lists list).filter fun object =>
        state.unit.objexp object > checkTime state.clock now := by
  obtain ⟨enough, due, links, works, -, due_iff, rings⟩ := holds.checkExpired_eq now
  cases (checkExpired_mono (Nat.le_max_left rounds enough) checks).symm.trans
    (works _ (Nat.le_max_right rounds enough))
  refine ⟨rings, ?_, holds.nodup, fun list other mem =>
    holds.used list other (List.mem_of_mem_filter mem), holds.timeout_pos, fun list =>
    (holds.sorted list).sublist List.filter_sublist, fun list other mem =>
    holds.exp_le list other (List.mem_of_mem_filter mem), ?_⟩
  · rw [holds.pending, List.filter_nil]
  · intro object exp
    have expires_iff := holds.expires_iff object exp
    have fired_iff := due_iff object
    simp only [Expires, List.mem_filter, decide_eq_true_iff] at expires_iff ⊢
    grind

theorem Holds.step (holds : Holds before lists) {event : Event κ ω}
    (steps : before.Steps after event) : ∃ lists, Holds after lists := by
  cases event with
  | getTimerList msec fresh =>
      obtain ⟨pos, unused, rfl⟩ := steps
      exact ⟨lists, holds.getTimerList pos unused⟩
  | attachTimer object list =>
      obtain ⟨member, rfl⟩ := steps
      exact ⟨_, holds.attachTimer object member⟩
  | disableTimer object =>
      obtain rfl := steps
      exact ⟨_, holds.disableTimer object⟩
  | checkExpired rounds now =>
      obtain ⟨fired, unit, checks, rfl⟩ := steps
      exact ⟨_, holds.checkExpired checks⟩
  | tick clock =>
      obtain ⟨later, rfl⟩ := steps
      refine ⟨lists, { holds with exp_le := fun list object mem => ?_ }⟩
      exact (holds.exp_le list object mem).trans (Int.add_le_add_right later _)

theorem Reaches.holds (reaches : Reaches state) : ∃ lists, Holds state lists := by
  obtain ⟨timeout, objexp, clock, run⟩ := reaches
  induction run with
  | refl => exact ⟨_, holds_start timeout objexp clock⟩
  | tail _ step induction =>
      obtain ⟨lists, holds⟩ := induction
      obtain ⟨event, steps⟩ := step
      exact holds.step steps

theorem Holds.fires (holds : Holds state lists) (now : Int) : ∃ enough fired after,
    (∀ rounds ≥ enough, state.unit.checkExpired rounds state.clock now = some (fired, after)) ∧
    fired.Nodup ∧
    (∀ object, object ∈ fired ↔
      ∃ exp, state.Expires object exp ∧ exp ≤ checkTime state.clock now) ∧
    ∀ object ∈ fired, Detached after object := by
  obtain ⟨enough, fired, links, checks, nodup, fired_iff, rings⟩ := holds.checkExpired_eq now
  refine ⟨enough, fired, _, checks, nodup, fun object => ?_, fun object mem => ?_⟩
  · rw [fired_iff]
    simp only [holds.expires_iff]
    constructor
    · rintro ⟨list, mem, expired⟩
      exact ⟨_, ⟨list, mem, rfl⟩, expired⟩
    · rintro ⟨_, ⟨list, mem, rfl⟩, expired⟩
      exact ⟨list, mem, expired⟩
  · obtain ⟨list, mem, expired⟩ := (fired_iff object).1 mem
    have alone : links.next (.inr object) = .inr object := by
      refine rings.single object fun head mem => ?_
      rw [List.mem_filter, decide_eq_true_iff] at mem
      exact absurd expired (not_le.2 mem.2)
    exact ⟨alone, (rings.linked.next_eq_iff.1 alone).symm⟩

theorem Holds.waits (holds : Holds state lists) {msec : Int} (low : -2147483648 ≤ msec)
    (high : msec < 2147483648) : ∃ wait,
    state.unit.expireMicroSeconds state.clock msec = some (max 0 wait) ∧
    IsLeast (insert msec {wait | ∃ object exp, state.Expires object exp ∧ wait = exp - state.clock})
      wait := by
  obtain ⟨least, loops, le, all_le, attained⟩ := expLoop_eq holds.rings holds.sorted state.unit.next
    (state.clock + msec)
  refine ⟨least - state.clock, ?_, ?_, ?_⟩
  · rw [expireMicroSeconds, loops]
    simp only [Option.bind_eq_bind, Option.bind_some]
    split
    · rw [max_eq_left ‹_›]
      rfl
    · have pos : 0 < least - state.clock := not_le.1 ‹_›
      rw [max_eq_right pos.le, i32]
      refine congrArg some ?_
      omega
  · rcases attained with rfl | ⟨list, -, object, mem, exp_eq⟩
    · exact Or.inl (by omega)
    · exact Or.inr ⟨object, least, (holds.expires_iff object least).2 ⟨list, mem, exp_eq.symm⟩, rfl⟩
  · rintro other (rfl | ⟨object, exp, expires, rfl⟩)
    · omega
    · obtain ⟨list, mem, rfl⟩ := (holds.expires_iff object exp).1 expires
      have := all_le list (holds.used list object mem) object mem
      omega

end Holds

/-- In every state of a run the unit is timely. -/
theorem reaches_timely {state : Timed κ ω} (reaches : Reaches state) : Timely state := by
  obtain ⟨lists, holds⟩ := reaches.holds
  exact ⟨⟨lists, holds.rings, fun list _ => holds.sorted _⟩, holds.fires, fun msec => holds.waits⟩

/-! ## Sample -/

/-- At the time 3, two objects are attached to lists with the timeouts 5 and 2. -/
def twoAttached : Timed Nat Nat :=
  let first := (init (fun _ => 0) fun _ => 0 : CTimerUnit Nat Nat).getTimerList 5 0
  let second := first.2.getTimerList 2 1
  ⟨(second.2.attachTimer 3 7 first.1).attachTimer 3 8 second.1, 3,
    Function.update (Function.update (fun _ => none) 7 (some (3, 5))) 8 (some (3, 2))⟩

theorem reaches_timely_sample : Reaches twoAttached ∧ Timely twoAttached ∧
    (twoAttached.unit.checkExpired 2 3 5).map Prod.fst = some [8] ∧
    (twoAttached.unit.checkExpired 2 3 8).map Prod.fst = some [8, 7] ∧
    twoAttached.unit.expireMicroSeconds 3 9 = some 2 := by
  have reaches : Reaches twoAttached := by
    refine ⟨fun _ => 0, fun _ => 0, 3, (((Relation.ReflTransGen.single
      ⟨.getTimerList 5 0, by decide, by decide, rfl⟩).tail
      ⟨.getTimerList 2 1, by decide, by decide, rfl⟩).tail
      ⟨.attachTimer 7 0, by decide, rfl⟩).tail ⟨.attachTimer 8 1, by decide, rfl⟩⟩
  exact ⟨reaches, reaches_timely reaches, by decide, by decide, by decide⟩

end Timed

end Spp
