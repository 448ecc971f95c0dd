import Spp.Comm.TimerListRun
import Spp.Nest.LoopTimer

/-!
# Rounds of the timers

A timer attaches itself again with a time of expiry after the round if its timeout is positive; a
timeout of 0, or of 2^31 or more, leaves `objexp` as it is.
-/

namespace Spp.TNestTimerMng

open CTimerUnit

variable {κ ω : Type} [DecidableEq κ] [DecidableEq ω]

/-- A timer runs on a list. -/
def RunsOn (mng : TNestTimerMng κ ω) (object : ω) (list : κ) : Prop :=
  ∃ timer, mng.timer object = some timer ∧ timer.runFlag = true ∧ timer.timerList = some list

/-- A timer has a list of its interval. -/
structure Uses (mng : TNestTimerMng κ ω) (timer : TLoopTimer κ) (list : κ) : Prop where
  listed : list ∈ mng.unit.next
  timeout_eq : mng.unit.timeout list = i32 timer.timeWait

/-- A list holds the timers that run on it, and each of them is in one list. -/
structure Sound (mng : TNestTimerMng κ ω) (lists : Option κ → List ω) : Prop where
  rings : mng.unit.links.Rings lists
  pending : lists none = []
  nodup : mng.unit.next.Nodup
  member_iff : ∀ list object, object ∈ lists (some list) ↔ mng.RunsOn object list
  uses : ∀ object timer, mng.timer object = some timer →
    ∀ list, timer.timerList = some list → mng.Uses timer list

variable {mng after : TNestTimerMng κ ω} {lists moved : Option κ → List ω} {object : ω} {list : κ}
  {timer : Option (TLoopTimer κ)} {clock now ret : Int} {chain : List κ} {rounds : Nat}
  {fired : List ω}

omit [DecidableEq κ] [DecidableEq ω] in
theorem sound_init (timeout : κ → Int) (objexp : ω → Int) :
    Sound (init timeout objexp) fun _ => [] where
  rings := Links.rings_alone
  pending := rfl
  nodup := List.nodup_nil
  member_iff := by
    intro list object
    refine iff_of_false List.not_mem_nil ?_
    rintro ⟨timer, found, -⟩
    cases found
  uses := fun _ _ found => by cases found

omit [DecidableEq κ] [DecidableEq ω] in
theorem Sound.not_mem (sound : Sound mng lists)
    (idle : ∀ timer, mng.timer object = some timer → timer.runFlag = false) (head : Option κ) :
    object ∉ lists head := by
  intro member
  cases head with
  | none => exact List.not_mem_nil (sound.pending ▸ member)
  | some list =>
      obtain ⟨timer, found, runs, -⟩ := (sound.member_iff list object).mp member
      rw [idle timer found] at runs
      cases runs

omit [DecidableEq κ] in
/-- A timer is written, and only this timer changes its place in the lists. -/
theorem Sound.write (sound : Sound mng lists) (rings : after.unit.links.Rings moved)
    (pending : moved none = []) (next_eq : after.unit.next = mng.unit.next)
    (timeout_eq : after.unit.timeout = mng.unit.timeout)
    (timer_eq : after.timer = Function.update mng.timer object timer)
    (others : ∀ head other, other ≠ object → (other ∈ moved head ↔ other ∈ lists head))
    (own : ∀ list, object ∈ moved (some list) ↔
      ∃ kept, timer = some kept ∧ kept.runFlag = true ∧ kept.timerList = some list)
    (uses : ∀ kept, timer = some kept → ∀ list, kept.timerList = some list → mng.Uses kept list) :
    Sound after moved := by
  have uses_after : ∀ {kept list}, mng.Uses kept list → after.Uses kept list := by
    intro kept list used
    exact ⟨next_eq ▸ used.listed, by rw [timeout_eq, used.timeout_eq]⟩
  refine ⟨rings, pending, next_eq ▸ sound.nodup, fun list other => ?_, fun other kept found => ?_⟩
  · have member_iff := sound.member_iff list other
    simp only [RunsOn, timer_eq, Function.update_apply] at member_iff ⊢
    grind
  · intro list is_list
    apply uses_after
    rw [timer_eq, Function.update_apply] at found
    split at found
    · exact uses kept found list is_list
    · exact sound.uses other kept found list is_list

omit [DecidableEq κ] in
theorem Sound.setIdle (sound : Sound mng lists) (none_in : ∀ head, object ∉ lists head)
    (idle : ∀ kept, timer = some kept → kept.runFlag = false)
    (uses : ∀ kept, timer = some kept → ∀ list, kept.timerList = some list → mng.Uses kept list) :
    Sound (mng.setTimerObject object timer) lists := by
  refine sound.write sound.rings sound.pending rfl rfl rfl (fun _ _ _ => Iff.rfl)
    (fun list => ?_) uses
  have not_in := none_in (some list)
  grind

theorem Sound.attach (sound : Sound mng lists) {timer : TLoopTimer κ} (clock : Int)
    (is_list : timer.timerList = some list) (runs : timer.runFlag = true)
    (uses : mng.Uses timer list) :
    Sound ((mng.attachTimer clock object list).setTimerObject object (some timer))
      (Function.update (fun head => (lists head).erase object) (some list)
        ((lists (some list)).erase object ++ [object])) := by
  refine sound.write (sound.rings.moveTail object (some list)) ?_ rfl rfl rfl
    (fun head other ne => ?_) (fun other_list => ?_) fun kept found other_list is_other => ?_
  · rw [Function.update_of_ne (by simp), sound.pending]
    rfl
  · rw [Timed.mem_moved sound.rings.nodup, if_neg ne]
  · rw [Timed.mem_moved sound.rings.nodup, if_pos rfl]
    grind
  · cases found
    cases Option.some.inj (is_other.symm.trans is_list)
    exact uses

theorem Sound.disable (sound : Sound mng lists)
    (idle : ∀ kept, timer = some kept → kept.runFlag = false)
    (uses : ∀ kept, timer = some kept → ∀ list, kept.timerList = some list → mng.Uses kept list) :
    Sound ((mng.disableTimer object).setTimerObject object timer)
      fun head => (lists head).erase object := by
  refine sound.write (sound.rings.delInit object) ?_ rfl rfl rfl (fun head other ne => ?_)
    (fun list => ?_) uses
  · rw [sound.pending]
    rfl
  · rw [(sound.rings.nodup _).mem_erase_iff]
    exact and_iff_right ne
  · have not_in := (sound.rings.nodup (some list)).not_mem_erase (a := object)
    grind

omit [DecidableEq κ] [DecidableEq ω] in
theorem Sound.of_eq (sound : Sound mng lists) (unit_eq : after.unit = mng.unit)
    (timer_eq : after.timer = mng.timer) : Sound after lists := by
  obtain ⟨unit, timer, timerMap, currTid⟩ := mng
  obtain ⟨unit, timer, timerMap, currTid⟩ := after
  cases unit_eq
  cases timer_eq
  exact { sound with
    uses := fun object timer found list is_list =>
      { sound.uses object timer found list is_list with } }

/-! ## Calls -/

theorem Sound.newTimer (sound : Sound mng lists) (fresh : mng.timer object = none) (objexp : Int) :
    Sound (mng.newTimer object objexp) lists := by
  have none_in : ∀ head, object ∉ lists head :=
    sound.not_mem fun timer found => absurd (fresh.symm.trans found) (by simp)
  have links_eq : mng.unit.links.init (.inr object) = mng.unit.links :=
    sound.rings.linked.init_eq (sound.rings.single object none_in)
  refine sound.write ?_ sound.pending rfl rfl rfl (fun _ _ _ => Iff.rfl) (fun list => ?_) ?_
  · exact (congrArg (fun links => Links.Rings links lists) links_eq).mpr sound.rings
  · simp [none_in]
  · simp +contextual

theorem Sound.getTimerList (sound : Sound mng lists) (msec : Int) {fresh : κ}
    (unused : fresh ∉ mng.unit.next) :
    Sound { mng with unit := (mng.unit.getTimerList msec fresh).2 } lists ∧
      (mng.unit.getTimerList msec fresh).1 ∈ (mng.unit.getTimerList msec fresh).2.next ∧
      (mng.unit.getTimerList msec fresh).2.timeout (mng.unit.getTimerList msec fresh).1 = msec := by
  rw [CTimerUnit.getTimerList]
  split
  · rename_i list found
    refine ⟨sound.of_eq rfl rfl, List.mem_of_find?_eq_some found, ?_⟩
    have timeout_eq := List.find?_some found
    exact of_decide_eq_true timeout_eq
  · have empty : lists (some fresh) = [] := by
      refine List.eq_nil_iff_forall_not_mem.2 fun object member => unused ?_
      obtain ⟨timer, found, -, is_list⟩ := (sound.member_iff fresh object).mp member
      exact (sound.uses object timer found fresh is_list).listed
    have links_eq : mng.unit.links.init (.inl (some fresh)) = mng.unit.links :=
      sound.rings.linked.init_eq (sound.rings.next_nil empty)
    refine ⟨⟨?_, sound.pending, List.nodup_cons.2 ⟨unused, sound.nodup⟩, sound.member_iff, ?_⟩,
      List.mem_cons_self, Function.update_self ..⟩
    · exact (congrArg (fun links => Links.Rings links lists) links_eq).mpr sound.rings
    · intro object timer found list is_list
      have used := sound.uses object timer found list is_list
      refine ⟨List.mem_cons_of_mem _ used.listed,
        (Function.update_of_ne ?_ _ _).trans used.timeout_eq⟩
      rintro rfl
      exact unused used.listed

theorem Sound.setTimer (sound : Sound mng lists) (clock : Int) (timeWait : Nat) {fresh : κ}
    (unused : fresh ∉ mng.unit.next) :
    ∃ moved, Sound (mng.setTimer clock object timeWait fresh) moved := by
  obtain ⟨found_sound, listed, timeout_eq⟩ := sound.getTimerList (i32 timeWait) unused
  exact ⟨_, found_sound.attach clock rfl rfl ⟨listed, timeout_eq⟩⟩

theorem Sound.deleteObject (sound : Sound mng lists)
    (deletes : mng.deleteObject object = some after) :
    ∃ moved, Sound after moved := by
  obtain ⟨timer, found, same⟩ := Option.bind_eq_some_iff.mp deletes
  cases same
  cases runs : timer.runFlag with
  | true => exact ⟨_, sound.disable (by simp) (by simp)⟩
  | false =>
      refine ⟨lists, sound.setIdle (sound.not_mem fun kept is_kept => ?_) (by simp) (by simp)⟩
      cases Option.some.inj (found.symm.trans is_kept)
      exact runs

theorem Sound.startObject (sound : Sound mng lists)
    (starts : mng.startObject clock object = some (ret, after)) : ∃ moved, Sound after moved := by
  obtain ⟨timer, found, same⟩ := Option.bind_eq_some_iff.mp starts
  split at same
  · cases same
    exact ⟨lists, sound⟩
  · split at same
    · cases same
      exact ⟨lists, sound⟩
    · rename_i list is_list
      cases same
      exact ⟨_, sound.attach clock is_list rfl { sound.uses object timer found list is_list with }⟩

theorem Sound.stopObject (sound : Sound mng lists) (stops : mng.stopObject object = some after) :
    ∃ moved, Sound after moved := by
  obtain ⟨timer, found, same⟩ := Option.bind_eq_some_iff.mp stops
  split at same
  · cases same
    refine ⟨_, sound.disable (fun kept is_kept => ?_) fun kept is_kept list is_list => ?_⟩
    · cases is_kept
      rfl
    · cases is_kept
      exact { sound.uses object timer found list is_list with }
  · cases same
    exact ⟨lists, sound⟩

/-! ## One list -/

/-- A timer is taken from the front of its list and attaches itself again. -/
def rotated (mng : TNestTimerMng κ ω) (clock : Int) (object : ω) (list : κ) : TNestTimerMng κ ω :=
  { mng with unit := (mng.unit.listDel object).attachTimer clock object list }

/-- What a check does not change, but for the times of expiry of some timers. -/
structure Keeps (mng after : TNestTimerMng κ ω) (spared : ω → Prop) : Prop where
  timer_eq : after.timer = mng.timer
  timerMap_eq : after.timerMap = mng.timerMap
  currTid_eq : after.currTid = mng.currTid
  next_eq : after.unit.next = mng.unit.next
  timeout_eq : after.unit.timeout = mng.unit.timeout
  objexp_eq : ∀ object, spared object → after.unit.objexp object = mng.unit.objexp object

section Loop

variable {rest : List ω}

omit [DecidableEq κ] [DecidableEq ω] in
theorem Keeps.refl (mng : TNestTimerMng κ ω) (spared : ω → Prop) : Keeps mng mng spared :=
  ⟨rfl, rfl, rfl, rfl, rfl, fun _ _ => rfl⟩

omit [DecidableEq κ] [DecidableEq ω] in
theorem Keeps.trans {between : TNestTimerMng κ ω} {spared : ω → Prop}
    (first : Keeps mng between spared) (second : Keeps between after spared) :
    Keeps mng after spared where
  timer_eq := second.timer_eq.trans first.timer_eq
  timerMap_eq := second.timerMap_eq.trans first.timerMap_eq
  currTid_eq := second.currTid_eq.trans first.currTid_eq
  next_eq := second.next_eq.trans first.next_eq
  timeout_eq := second.timeout_eq.trans first.timeout_eq
  objexp_eq := fun object spares =>
    (second.objexp_eq object spares).trans (first.objexp_eq object spares)

theorem rotated_objexp_self (positive : 0 < mng.unit.timeout list) :
    (mng.rotated clock object list).unit.objexp =
      Function.update mng.unit.objexp object (clock + mng.unit.timeout list) :=
  if_pos positive

theorem rotated_objexp_nonpos (nonpos : ¬0 < mng.unit.timeout list) :
    (mng.rotated clock object list).unit.objexp = mng.unit.objexp :=
  if_neg nonpos

theorem rotated_objexp_of_ne {other : ω} (ne : other ≠ object) :
    (mng.rotated clock object list).unit.objexp other = mng.unit.objexp other := by
  by_cases positive : 0 < mng.unit.timeout list
  · rw [rotated_objexp_self positive, Function.update_of_ne ne]
  · rw [rotated_objexp_nonpos positive]

theorem keeps_rotated {spared : ω → Prop} (not_spared : ¬spared object) :
    Keeps mng (mng.rotated clock object list) spared :=
  ⟨rfl, rfl, rfl, rfl, rfl,
    fun _ spares => rotated_objexp_of_ne fun same => not_spared (same ▸ spares)⟩

theorem Sound.rotated (sound : Sound mng lists) (content : lists (some list) = object :: rest)
    (clock : Int) :
    Sound (mng.rotated clock object list) (Function.update lists (some list) (rest ++ [object])) ∧
      { mng with unit := mng.unit.listDel object }.timerNotify clock object =
        some (mng.rotated clock object list) := by
  have member : object ∈ lists (some list) := content ▸ List.mem_cons_self
  obtain ⟨timer, found, runs, is_list⟩ := (sound.member_iff list object).mp member
  have nodup := sound.rings.nodup (some list)
  rw [content] at nodup
  obtain ⟨not_in_rest, -⟩ := List.nodup_cons.mp nodup
  have rings := (sound.rings.delInit object).moveTail object (some list)
  have lists_eq : Function.update (fun head => ((lists head).erase object).erase object) (some list)
      (((lists (some list)).erase object).erase object ++ [object]) =
      Function.update lists (some list) (rest ++ [object]) := by
    rw [content, List.erase_cons_head, List.erase_of_not_mem not_in_rest]
    funext head
    simp only [Function.update_apply]
    split
    · rfl
    · rename_i ne
      have not_in : object ∉ lists head := fun other => ne (sound.rings.unique other member)
      rw [List.erase_of_not_mem not_in, List.erase_of_not_mem not_in]
  rw [lists_eq] at rings
  have mem_iff : ∀ head other, other ∈ Function.update lists (some list) (rest ++ [object]) head ↔
      other ∈ lists head := by
    intro head other
    rw [Function.update_apply]
    grind
  constructor
  · refine ⟨rings, ?_, sound.nodup, fun other_list other => ?_,
      fun other kept is_kept other_list is_other =>
        { sound.uses other kept is_kept other_list is_other with }⟩
    · rw [Function.update_of_ne (by simp)]
      exact sound.pending
    · rw [mem_iff, sound.member_iff]
      rfl
  · rw [timerNotify]
    simp only [found, Option.bind_eq_bind, Option.bind_some, runs, if_true, is_list]
    rfl

theorem notifyLoop_succ (sound : Sound mng lists) (content : lists (some list) = object :: rest)
    (clock : Int) (stays : Int → Bool) (rounds : Nat) :
    notifyLoop clock (some list) stays (rounds + 1) mng =
      if stays (mng.unit.objexp object) then some ([], mng)
      else (notifyLoop clock (some list) stays rounds (mng.rotated clock object list)).map
        fun found => (object :: found.1, found.2) := by
  have some_in : ¬mng.unit.listEmpty (some list) = true := by
    rw [listEmpty_iff sound.rings, content]
    exact List.cons_ne_nil object rest
  rw [notifyLoop, if_neg some_in, nextOwner_eq sound.rings content, Option.bind_eq_bind,
    Option.bind_some, (sound.rotated content clock).2]
  split
  · rfl
  · rw [Option.bind_eq_bind, Option.bind_some, Option.bind_eq_bind, Option.map_eq_bind]
    rfl

theorem notifyLoop_nil (sound : Sound mng lists) {head : Option κ} (content : lists head = [])
    (clock : Int) (stays : Int → Bool) (rounds : Nat) :
    notifyLoop clock head stays (rounds + 1) mng = some ([], mng) := by
  rw [notifyLoop, if_pos ((listEmpty_iff sound.rings).mpr content)]

theorem notifyLoop_keeps (sound : Sound mng lists) {stays : Int → Bool}
    (loops : notifyLoop clock (some list) stays rounds mng = some (fired, after)) :
    ∃ moved, Sound after moved ∧ (∀ head, head ≠ some list → moved head = lists head) ∧
      Keeps mng after fun object => object ∉ lists (some list) := by
  induction rounds generalizing mng lists fired with
  | zero => cases loops
  | succ rounds induction =>
      cases content : lists (some list) with
      | nil =>
          rw [notifyLoop_nil sound content] at loops
          cases loops
          exact ⟨lists, sound, fun _ _ => rfl, Keeps.refl ..⟩
      | cons object rest =>
          rw [notifyLoop_succ sound content] at loops
          split at loops
          · cases loops
            exact ⟨lists, sound, fun _ _ => rfl, Keeps.refl ..⟩
          · obtain ⟨found, rest_loops, same⟩ := Option.map_eq_some_iff.mp loops
            cases same
            obtain ⟨moved, moved_sound, others, keeps⟩ :=
              induction (sound.rotated content clock).1 rest_loops
            refine ⟨moved, moved_sound, fun head ne => ?_, ?_⟩
            · rw [others head ne, Function.update_of_ne ne]
            · have first := @keeps_rotated _ _ _ _ mng object list clock
                (fun other => other ∉ object :: rest) fun spared => spared List.mem_cons_self
              refine first.trans ?_
              have same_members : ∀ other, other ∉ object :: rest →
                  other ∉ Function.update lists (some list) (rest ++ [object]) (some list) := by
                intro other not_in
                rw [Function.update_self, List.mem_append, List.mem_singleton, or_comm]
                rwa [List.mem_cons] at not_in
              exact { keeps with
                objexp_eq := fun other spared => keeps.objexp_eq other (same_members other spared) }

/-- A list that is left: its timeout is positive, it is empty, or one of its timers has not
expired. -/
def Stops (mng : TNestTimerMng κ ω) (lists : Option κ → List ω) (now : Int) (list : κ) : Prop :=
  0 < mng.unit.timeout list ∨ lists (some list) = [] ∨
    ∃ object ∈ lists (some list), now < mng.unit.objexp object

/-- The loop ends at a timer that has not expired, or when all timers have a new time of expiry. -/
theorem notifyLoop_ends (sound : Sound mng lists) {front tail : List ω}
    (content : lists (some list) = front ++ tail)
    (stop : (∃ object ∈ front, clock < mng.unit.objexp object) ∨
      0 < mng.unit.timeout list ∧ ∀ object ∈ tail, clock < mng.unit.objexp object) :
    ∃ fired after, fired <+: front ∧ ∀ rounds > front.length, notifyLoop clock (some list)
      (fun objexp => objexp > clock) rounds mng = some (fired, after) := by
  induction front generalizing mng lists tail with
  | nil =>
      refine ⟨[], mng, List.nil_prefix, fun rounds enough => ?_⟩
      obtain ⟨rounds, rfl⟩ := Nat.exists_eq_succ_of_ne_zero (Nat.ne_of_gt enough)
      obtain ⟨_, member, -⟩ | ⟨-, later⟩ := stop
      · exact absurd member List.not_mem_nil
      · rw [List.nil_append] at content
        cases tail with
        | nil => exact notifyLoop_nil sound content ..
        | cons object tail =>
            rw [notifyLoop_succ sound content, if_pos]
            exact decide_eq_true (later object List.mem_cons_self)
  | cons object front induction =>
      rw [List.cons_append] at content
      by_cases stays : clock < mng.unit.objexp object
      · refine ⟨[], mng, List.nil_prefix, fun rounds enough => ?_⟩
        obtain ⟨rounds, rfl⟩ := Nat.exists_eq_succ_of_ne_zero (Nat.ne_zero_of_lt enough)
        rw [notifyLoop_succ sound content, if_pos]
        exact decide_eq_true stays
      · have nodup := sound.rings.nodup (some list)
        rw [content, List.nodup_cons, List.mem_append, not_or] at nodup
        have same : ∀ other, other ≠ object →
            (mng.rotated clock object list).unit.objexp other = mng.unit.objexp other :=
          fun other => rotated_objexp_of_ne
        have next_content : Function.update lists (some list) (front ++ tail ++ [object])
            (some list) =
            front ++ (tail ++ [object]) := by
          rw [Function.update_self, List.append_assoc]
        obtain ⟨fired, after, before, loops⟩ :=
          induction (sound.rotated content clock).1 next_content
          (by
            rcases stop with ⟨other, member, later⟩ | ⟨positive, later⟩
            · rcases List.mem_cons.mp member with is_first | member
              · exact absurd (is_first ▸ later) stays
              · refine Or.inl ⟨other, member, ?_⟩
                rwa [same other fun is_first => nodup.1.1 (is_first ▸ member)]
            · refine Or.inr ⟨positive, List.forall_mem_append.mpr ⟨fun other member => ?_, ?_⟩⟩
              · rw [same other fun is_first => nodup.1.2 (is_first ▸ member)]
                exact later other member
              · intro other is_last
                rw [List.mem_singleton.mp is_last, rotated_objexp_self positive,
                  Function.update_self]
                omega)
        refine ⟨object :: fired, after, List.cons_prefix_cons.mpr ⟨rfl, before⟩,
          fun rounds enough => ?_⟩
        obtain ⟨rounds, rfl⟩ := Nat.exists_eq_succ_of_ne_zero (Nat.ne_zero_of_lt enough)
        rw [notifyLoop_succ sound content, if_neg (by simpa using stays),
          loops rounds (Nat.lt_of_succ_lt_succ enough)]
        rfl

/-- A list without a new time of expiry, all of whose timers have expired, is never left. -/
theorem notifyLoop_never (sound : Sound mng lists) (never : ¬Stops mng lists now list)
    (rounds : Nat) :
    notifyLoop clock (some list) (fun objexp => objexp > now) rounds mng = none := by
  induction rounds generalizing mng lists with
  | zero => rfl
  | succ rounds induction =>
      rw [Stops, not_or, not_or] at never
      obtain ⟨nonpos, some_in, expired⟩ := never
      obtain ⟨object, rest, content⟩ := List.exists_cons_of_ne_nil some_in
      have all_expired : ∀ other ∈ lists (some list), ¬now < mng.unit.objexp other :=
        fun other member later => expired ⟨other, member, later⟩
      rw [notifyLoop_succ sound content, if_neg, induction (sound.rotated content clock).1]
      · rfl
      · rw [Stops, not_or, not_or, rotated_objexp_nonpos nonpos, Function.update_self]
        refine ⟨nonpos, by simp, ?_⟩
        rintro ⟨other, member, later⟩
        refine all_expired other ?_ later
        rw [content, List.mem_cons, or_comm]
        simpa using member
      · simpa using all_expired object (content ▸ List.mem_cons_self)

/-! ## All lists -/

omit [DecidableEq κ] [DecidableEq ω] in
theorem Stops.of_keeps {other : κ} (sound : Sound mng lists) (ne : other ≠ list)
    (same : moved (some other) = lists (some other))
    (keeps : Keeps mng after fun object => object ∉ lists (some list)) :
    Stops after moved now other ↔ Stops mng lists now other := by
  unfold Stops
  rw [same, keeps.timeout_eq]
  refine or_congr_right
    (or_congr_right (exists_congr fun object => and_congr_right fun member => ?_))
  rw [keeps.objexp_eq object fun here =>
    ne (Option.some.inj (sound.rings.unique member here))]

theorem Stops.loops (sound : Sound mng lists) (stops : Stops mng lists clock list) :
    ∃ fired after, fired <+: lists (some list) ∧ ∀ rounds > (lists (some list)).length,
      notifyLoop clock (some list) (fun objexp => objexp > clock) rounds mng =
        some (fired, after) := by
  have content : lists (some list) = lists (some list) ++ [] := (List.append_nil _).symm
  rcases stops with positive | empty | later
  · exact notifyLoop_ends sound content (Or.inr ⟨positive, fun _ member =>
      absurd member List.not_mem_nil⟩)
  · refine ⟨[], mng, List.nil_prefix, fun rounds enough => ?_⟩
    obtain ⟨rounds, rfl⟩ := Nat.exists_eq_succ_of_ne_zero (Nat.ne_zero_of_lt enough)
    exact notifyLoop_nil sound empty ..
  · exact notifyLoop_ends sound content (Or.inl later)

omit [DecidableEq κ] [DecidableEq ω] in
theorem checkTime_self (clock : Int) : checkTime clock clock = clock := ite_self clock

/-- Some rounds are enough for all lists that are left, and no timer is notified twice. -/
theorem checkLists_ends (sound : Sound mng lists) (nodup : chain.Nodup)
    (stops : ∀ list ∈ chain, Stops mng lists clock list) :
    ∃ enough fired after, (∀ rounds ≥ enough, checkLists rounds clock clock chain mng =
        some (fired, after)) ∧ fired.Nodup ∧
      ∀ object ∈ fired, ∃ list ∈ chain, object ∈ lists (some list) := by
  induction chain generalizing mng lists with
  | nil => exact ⟨0, [], mng, fun _ _ => rfl, List.nodup_nil, fun _ member =>
      absurd member List.not_mem_nil⟩
  | cons list chain induction =>
      obtain ⟨fresh, nodup⟩ := List.nodup_cons.mp nodup
      obtain ⟨first, between, before, loops⟩ := (stops list List.mem_cons_self).loops sound
      obtain ⟨moved, moved_sound, others, keeps⟩ :=
        notifyLoop_keeps sound (loops _ (Nat.lt_succ_self _))
      have ne_of_mem : ∀ other ∈ chain, other ≠ list := fun other member same =>
        fresh (same ▸ member)
      have same : ∀ other ∈ chain, moved (some other) = lists (some other) := fun other member =>
        others _ fun same => ne_of_mem other member (Option.some.inj same)
      obtain ⟨enough, fired, after, checks, fired_nodup, fired_mem⟩ := induction moved_sound nodup
        fun other member => (Stops.of_keeps sound (ne_of_mem other member) (same other member)
          keeps).mpr (stops other (List.mem_cons_of_mem _ member))
      have fired_mem : ∀ object ∈ fired, ∃ other ∈ chain, object ∈ lists (some other) := by
        intro object member
        obtain ⟨other, is_other, found⟩ := fired_mem object member
        exact ⟨other, is_other, same other is_other ▸ found⟩
      refine ⟨max enough ((lists (some list)).length + 1), first ++ fired, after,
        fun rounds many => ?_, ?_, fun object member => ?_⟩
      · rw [checkLists, checkTime_self, loops rounds (by omega), Option.bind_eq_bind,
          Option.bind_some, checks rounds (by omega)]
        rfl
      · refine List.nodup_append.mpr ⟨(sound.rings.nodup _).sublist before.sublist, fired_nodup, ?_⟩
        rintro object first_member _ other_member rfl
        obtain ⟨other, is_other, found⟩ := fired_mem object other_member
        exact ne_of_mem other is_other
          (Option.some.inj (sound.rings.unique found (before.subset first_member)))
      · rcases List.mem_append.mp member with here | behind
        · exact ⟨list, List.mem_cons_self, before.subset here⟩
        · obtain ⟨other, is_other, found⟩ := fired_mem object behind
          exact ⟨other, List.mem_cons_of_mem _ is_other, found⟩

theorem checkLists_never (sound : Sound mng lists) (nodup : chain.Nodup) (member : list ∈ chain)
    (never : ¬Stops mng lists (checkTime clock now) list) (rounds : Nat) :
    checkLists rounds clock now chain mng = none := by
  induction chain generalizing mng lists with
  | nil => exact absurd member List.not_mem_nil
  | cons first chain induction =>
      obtain ⟨fresh, nodup⟩ := List.nodup_cons.mp nodup
      rw [checkLists]
      by_cases here : list = first
      · rw [← here, notifyLoop_never sound never]
        rfl
      · cases loops : notifyLoop clock (some first)
            (fun objexp => objexp > checkTime clock now) rounds mng with
        | none => rfl
        | some found =>
            obtain ⟨moved, moved_sound, others, keeps⟩ := notifyLoop_keeps sound loops
            have same : moved (some list) = lists (some list) :=
              others _ fun same => here (Option.some.inj same)
            rw [Option.bind_eq_bind, Option.bind_some, induction moved_sound nodup
              ((List.mem_cons.mp member).resolve_left here)
              ((Stops.of_keeps sound here same keeps).not.mpr never)]
            rfl

theorem checkLists_keeps (sound : Sound mng lists)
    (checks : checkLists rounds clock now chain mng = some (fired, after)) :
    ∃ moved, Sound after moved ∧ Keeps mng after fun _ => False := by
  induction chain generalizing mng lists fired with
  | nil =>
      cases checks
      exact ⟨lists, sound, Keeps.refl ..⟩
  | cons list chain induction =>
      obtain ⟨first, loops, checks⟩ := Option.bind_eq_some_iff.mp checks
      obtain ⟨found, rest_checks, same⟩ := Option.bind_eq_some_iff.mp checks
      cases same
      obtain ⟨moved, moved_sound, -, keeps⟩ := notifyLoop_keeps sound loops
      obtain ⟨last, last_sound, last_keeps⟩ := induction moved_sound rest_checks
      refine ⟨last, last_sound, Keeps.trans ?_ last_keeps⟩
      exact { keeps with objexp_eq := fun _ spared => spared.elim }

theorem runTimer_eq (sound : Sound mng lists) (rounds : Nat) :
    mng.runTimer (rounds + 1) clock now =
      checkLists (rounds + 1) clock (checkTime clock now) mng.unit.next mng := by
  rw [runTimer, notifyLoop_nil sound sound.pending]
  simp only [Option.bind_eq_bind, Option.bind_some, List.nil_append]
  cases checkLists (rounds + 1) clock (checkTime clock now) mng.unit.next mng <;> rfl

end Loop

/-! ## Runs -/

/-- The calls of the manager, with what the system gives. -/
inductive Call (κ ω : Type) where
  /-- `CreateTimer`, with the memory that `new` gives and what stands in it. -/
  | createTimer (timeWait : Nat) (object : ω) (objexp : Int) (fresh : κ)
  | deleteTimer (tid : Int)
  | startTimer (tid : Int)
  | stopTimer (tid : Int)
  | runTimer (rounds : Nat) (now : Int)

/-- The manager after a call. -/
def perform (mng : TNestTimerMng κ ω) (clock : Int) : Call κ ω → Option (TNestTimerMng κ ω)
  | .createTimer timeWait object objexp fresh =>
      (mng.createTimer clock timeWait object objexp fresh).map Prod.snd
  | .deleteTimer tid => mng.deleteTimer tid
  | .startTimer tid => (mng.startTimer clock tid).map Prod.snd
  | .stopTimer tid => mng.stopTimer tid
  | .runTimer rounds now => (mng.runTimer rounds clock now).map Prod.snd

/-- `new` gives memory that is not in use. -/
def Call.Possible (mng : TNestTimerMng κ ω) : Call κ ω → Prop
  | .createTimer _ object _ fresh => mng.timer object = none ∧ fresh ∉ mng.unit.next
  | _ => True

/-- A possible call that returns. -/
def Steps (before after : TNestTimerMng κ ω) (call : Call κ ω) : Prop :=
  call.Possible before ∧ ∃ clock, before.perform clock call = some after

/-- Runs from a manager without timers. -/
def Reaches (mng : TNestTimerMng κ ω) : Prop :=
  ∃ timeout objexp, Relation.ReflTransGen (fun before after => ∃ call, Steps before after call)
    (init timeout objexp) mng

section Runs

variable {call : Call κ ω}

theorem Sound.createTimer (sound : Sound mng lists) {objexp : Int} {timeWait : Nat} {fresh : κ}
    (unused : mng.timer object = none) (unlisted : fresh ∉ mng.unit.next)
    (creates : mng.createTimer clock timeWait object objexp fresh = some (ret, after)) :
    ∃ moved, Sound after moved := by
  obtain ⟨made, made_sound⟩ :=
    @Sound.setTimer _ _ _ _ _ _ object (sound.newTimer unused objexp) clock timeWait fresh unlisted
  obtain ⟨found, -, creates⟩ := Option.bind_eq_some_iff.mp creates
  cases found with
  | some tid =>
      cases creates
      exact ⟨made, made_sound.of_eq rfl rfl⟩
  | none =>
      obtain ⟨deleted, deletes, same⟩ := Option.bind_eq_some_iff.mp creates
      cases same
      have reset_sound : Sound
          { (mng.newTimer object objexp).setTimer clock object timeWait fresh with
          currTid := 0 } made := made_sound.of_eq rfl rfl
      exact reset_sound.deleteObject deletes

theorem Sound.steps (sound : Sound mng lists) (steps : Steps mng after call) :
    ∃ moved, Sound after moved := by
  obtain ⟨possible, clock, performs⟩ := steps
  cases call with
  | createTimer timeWait object objexp fresh =>
      obtain ⟨found, creates, same⟩ := Option.map_eq_some_iff.mp performs
      cases same
      exact sound.createTimer possible.1 possible.2 creates
  | deleteTimer tid =>
      rw [perform, deleteTimer] at performs
      split at performs
      · cases performs
        exact ⟨lists, sound⟩
      · have erased_sound :
          Sound { mng with timerMap := Function.update mng.timerMap tid none } lists :=
          sound.of_eq rfl rfl
        exact erased_sound.deleteObject performs
  | startTimer tid =>
      obtain ⟨found, starts, same⟩ := Option.map_eq_some_iff.mp performs
      cases same
      rw [startTimer] at starts
      split at starts
      · cases starts
        exact ⟨lists, sound⟩
      · exact sound.startObject starts
  | stopTimer tid =>
      rw [perform, stopTimer] at performs
      split at performs
      · cases performs
        exact ⟨lists, sound⟩
      · exact sound.stopObject performs
  | runTimer rounds now =>
      obtain ⟨found, runs, same⟩ := Option.map_eq_some_iff.mp performs
      cases same
      cases rounds with
      | zero => cases runs
      | succ rounds =>
          rw [runTimer_eq sound] at runs
          obtain ⟨moved, moved_sound, -⟩ := checkLists_keeps sound runs
          exact ⟨moved, moved_sound⟩

theorem Reaches.sound (reaches : Reaches mng) : ∃ lists, Sound mng lists := by
  obtain ⟨timeout, objexp, run⟩ := reaches
  induction run with
  | refl => exact ⟨_, sound_init timeout objexp⟩
  | tail _ step induction =>
      obtain ⟨lists, sound⟩ := induction
      obtain ⟨call, steps⟩ := step
      exact sound.steps steps

/-- Every running timer whose timeout is 0 or at least 2^31 shares its list with a running timer
that has not expired. -/
def Leaves (mng : TNestTimerMng κ ω) (clock : Int) : Prop :=
  ∀ object timer list, mng.timer object = some timer → timer.runFlag = true →
    timer.timerList = some list → i32 timer.timeWait ≤ 0 →
    ∃ other, mng.RunsOn other list ∧ clock < mng.unit.objexp other

omit [DecidableEq κ] [DecidableEq ω] in
theorem Sound.leaves_iff (sound : Sound mng lists) (clock : Int) :
    Leaves mng clock ↔ ∀ list ∈ mng.unit.next, Stops mng lists clock list := by
  constructor
  · intro leaves list _
    by_cases positive : 0 < mng.unit.timeout list
    · exact Or.inl positive
    · cases content : lists (some list) with
      | nil => exact Or.inr (Or.inl content)
      | cons object rest =>
          obtain ⟨timer, found, runs, is_list⟩ :=
            (sound.member_iff list object).mp (content ▸ List.mem_cons_self)
          have timeout_eq := (sound.uses object timer found list is_list).timeout_eq
          obtain ⟨other, on, later⟩ := leaves object timer list found runs is_list (by omega)
          exact Or.inr (Or.inr ⟨other, (sound.member_iff list other).mpr on, later⟩)
  · intro stops object timer list found runs is_list nonpos
    have uses := sound.uses object timer found list is_list
    have member := (sound.member_iff list object).mpr ⟨timer, found, runs, is_list⟩
    have timeout_eq := uses.timeout_eq
    rcases stops list uses.listed with positive | empty | ⟨other, is_other, later⟩
    · omega
    · rw [empty] at member
      exact absurd member List.not_mem_nil
    · exact ⟨other, (sound.member_iff list other).mp is_other, later⟩

/-- A timer runs. -/
def Runs (mng : TNestTimerMng κ ω) (object : ω) : Prop := ∃ list, mng.RunsOn object list

/-- `RunTimer` does not return if a list without timeouts is full of expired timers. -/
theorem Sound.runTimer_never (sound : Sound mng lists) (never : ¬mng.Leaves clock) (rounds : Nat) :
    mng.runTimer rounds clock clock = none := by
  rw [sound.leaves_iff] at never
  push Not at never
  obtain ⟨list, listed, never⟩ := never
  cases rounds with
  | zero => rfl
  | succ rounds =>
      rw [runTimer_eq sound, checkTime_self]
      exact checkLists_never sound sound.nodup listed (by rwa [checkTime_self]) _

/-- `RunTimer` with the time of the clock returns, and notifies running timers at most once each, if
and only if no list without timeouts is full of expired timers. -/
theorem reaches_runTimer_iff (reaches : Reaches mng) (clock : Int) :
    (∃ rounds fired after, mng.runTimer rounds clock clock = some (fired, after) ∧ fired.Nodup ∧
      ∀ object ∈ fired, mng.Runs object) ↔ mng.Leaves clock := by
  obtain ⟨lists, sound⟩ := reaches.sound
  constructor
  · rintro ⟨rounds, fired, after, runs, -⟩
    by_contra never
    rw [sound.runTimer_never never] at runs
    cases runs
  · intro leaves
    have stops := (sound.leaves_iff clock).mp leaves
    obtain ⟨enough, fired, after, checks, nodup, members⟩ := checkLists_ends sound sound.nodup stops
    refine ⟨enough + 1, fired, after, ?_, nodup, fun object member => ?_⟩
    · rw [runTimer_eq sound, checkTime_self]
      exact checks (enough + 1) (Nat.le_succ enough)
    · obtain ⟨list, -, found⟩ := members object member
      exact ⟨list, (sound.member_iff list object).mp found⟩

theorem Reaches.performed (reaches : Reaches mng) (clock : Int) (call : Call κ ω)
    (possible : call.Possible mng) (returns : (mng.perform clock call).isSome) :
    Reaches ((mng.perform clock call).get returns) := by
  obtain ⟨timeout, objexp, run⟩ := reaches
  exact ⟨timeout, objexp, run.tail ⟨call, possible, clock, (Option.some_get returns).symm⟩⟩

end Runs

/-- A manager without timers. -/
def fresh : TNestTimerMng Unit Unit := init (fun _ => 0) fun _ => 0

theorem reaches_fresh : Reaches fresh := ⟨_, _, Relation.ReflTransGen.refl⟩

/-- A timer of 10 milliseconds, 10 milliseconds later. -/
theorem reaches_runTimer_positive :
    ∃ mng : TNestTimerMng Unit Unit, Reaches mng ∧
      fresh.perform 100 (.createTimer 10 () 0 ()) = some mng ∧
      ∃ rounds fired after, mng.runTimer rounds 110 110 = some (fired, after) ∧ fired.Nodup ∧
        ∀ object ∈ fired, mng.Runs object := by
  have reaches := reaches_fresh.performed 100 (.createTimer 10 () 0 ()) ⟨rfl, List.not_mem_nil⟩
    (by decide)
  refine ⟨_, reaches, (Option.some_get _).symm, (reaches_runTimer_iff reaches 110).mpr ?_⟩
  intro object timer list found _ _ nonpos
  cases Option.some.inj (show some ⟨some (), 10, true⟩ = some timer from found)
  exact absurd nonpos (by decide)

/-- A timer of 0 milliseconds is notified without end. -/
theorem runTimer_endless :
    ∃ mng : TNestTimerMng Unit Unit, Reaches mng ∧
      fresh.perform 100 (.createTimer 0 () 0 ()) = some mng ∧
      ∀ rounds, mng.runTimer rounds 100 100 = none := by
  have reaches := reaches_fresh.performed 100 (.createTimer 0 () 0 ()) ⟨rfl, List.not_mem_nil⟩
    (by decide)
  obtain ⟨lists, sound⟩ := reaches.sound
  refine ⟨_, reaches, (Option.some_get _).symm, sound.runTimer_never fun leaves => ?_⟩
  obtain ⟨other, -, later⟩ := leaves () ⟨some (), 0, true⟩ () rfl rfl rfl (by decide)
  exact absurd (show (100 : Int) < 0 from later) (by decide)

end Spp.TNestTimerMng
